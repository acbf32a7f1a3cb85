import Harvest.Time.Civil
import Harvest.Number.Double

/-
  Instants of universal time, in microseconds, and their text.

  A number of seconds is split into its whole part and the rest. The rest is rounded to microseconds, a half to the even
  one. `Instant.text` writes date and time with six digits of a fraction, or with none if it is zero.
-/
namespace Harvest.Time
open Harvest (Double)

/-- An instant: whole seconds since the beginning of 1970, and the microseconds after. -/
structure Instant where
  seconds : Int
  micros : Nat
  micros_lt : micros < 1000000
  deriving DecidableEq, Repr

namespace Instant

/-- An instant from seconds and any number of microseconds. -/
def ofMicros (seconds micros : Int) : Instant :=
  ⟨seconds + micros.fdiv 1000000, (micros.fmod 1000000).toNat, by
    have h := Int.fmod_lt_of_pos micros (b := 1000000) (by decide)
    have h' := Int.fmod_nonneg_of_pos micros (b := 1000000) (by decide)
    omega⟩

/-- The whole number nearest to a double, a half to the even one. -/
def rounded : Double → Int
  | .finite s m e =>
    let (n, d) := Double.magnitude m e
    let r : Int := (Double.roundHalfEven n d : Nat)
    if s then -r else r
  | _ => 0

/-- What a finite double has behind its point, with its sign. -/
def fractionOf : Double → Double
  | .finite s m e =>
    let (n, d) := Double.magnitude m e
    .ofRatio s (n % d) d
  | x => x

/-- The instant of a number of seconds. -/
def ofDouble (x : Double) : Except Fault Instant :=
  match x.truncate? with
  | none => .error (if x = .nan then .notNumber else .range)
  | some whole =>
    if whole < -(Int.pow 2 63) || Int.pow 2 63 ≤ whole then .error .range
    else .ok (ofMicros whole (rounded ((fractionOf x).mul (.ofInt 1000000))))

/-- The instant of a whole number of seconds. -/
def ofInt (i : Int) : Except Fault Instant :=
  if i < -(Int.pow 2 63) || Int.pow 2 63 ≤ i then .error .range else .ok (ofMicros i 0)

/-- The date of an instant. -/
def date (t : Instant) : Date := .ofDays (t.seconds.fdiv 86400)

/-- The time of day of an instant. -/
def clock (t : Instant) : Clock := .ofSecond (t.seconds.fmod 86400).toNat

/-- A number with zeros in front. -/
def padded (width n : Nat) : String :=
  let ds := Nat.toDigits 10 n
  String.ofList (List.replicate (width - ds.length) '0' ++ ds)

/-- The greatest year whose count from 1900 has 32 bits. -/
def maxYear : Int := 2147483647 + 1900

/-- The least year whose count from 1900 has 32 bits. -/
def minYear : Int := -2147483648 + 1900

/-- The text of an instant. -/
def text (t : Instant) : Except Fault String := do
  let d := t.date
  let c := t.clock
  if d.year < minYear || maxYear < d.year then throw .yearRange
  d.check
  let fraction := if t.micros = 0 then "" else "." ++ padded 6 t.micros
  return padded 4 d.year.toNat ++ "-" ++ padded 2 d.month ++ "-" ++ padded 2 d.day ++ "T" ++ padded 2 c.hour ++ ":"
    ++ padded 2 c.minute ++ ":" ++ padded 2 c.second ++ fraction ++ "Z"

end Instant
end Harvest.Time
