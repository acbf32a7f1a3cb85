import Harvest.Number.Double
import Harvest.Text.Blank
import Harvest.Text.Digit
import Harvest.Text.Casing

/-
  Reading numbers from text.

    1. `natOfDigits?` reads a run of decimal digits of any script; `natural?` says why it cannot.
    2. `integer?` reads an integer: blanks around, a sign, single low lines between digits.
    3. `double?` reads a double: the same, with a point and an exponent, or one of the words for infinity and
       not-a-number.
-/
namespace Harvest.Numeral
open Harvest.Text

/-- The longest run of digits that is read as an integer, and the longest that one is written with. -/
def maxDigits : Nat := 4300

/-- One more decimal digit. -/
def pushDigit (n : Option Nat) (c : Char) : Option Nat :=
  match n, decimal? c with
  | some n, some d => some (10 * n + d)
  | _, _ => none

/-- The value of decimal digits of any script; none for the empty text. -/
def natOfDigits? (s : List Char) : Option Nat := if s.isEmpty then none else s.foldl pushDigit (some 0)

/-- A sign and the rest. -/
def sign : List Char → Bool × List Char
  | '-' :: s => (true, s)
  | '+' :: s => (false, s)
  | s => (false, s)

/-- Digits with single low lines between them, the low lines removed; `afterDigit` says that one stands just before. -/
def joinDigits (afterDigit : Bool) : List Char → Option (List Char)
  | [] => if afterDigit then some [] else none
  | c :: s =>
    if c = '_' then (if afterDigit then joinDigits false s else none)
    else if isDecimal c then (joinDigits true s).map (c :: ·)
    else none

/-- Why a text is not an integer. -/
inductive IntegerFault where
  | malformed
  | tooLong (digits : Nat)
  deriving DecidableEq, Repr

/-- What is said about a number of digits that is too great. -/
def tooLongMessage (digits : Nat) : String :=
  "Exceeds the limit (" ++ toString maxDigits ++ " digits) for integer string conversion: value has "
    ++ toString digits ++ " digits; use sys.set_int_max_str_digits() to increase the limit"

/-- What is said about an integer that has too many digits to be written. -/
def tooLongToWrite : String :=
  "Exceeds the limit (" ++ toString maxDigits
    ++ " digits) for integer string conversion; use sys.set_int_max_str_digits() to increase the limit"

/-- The number that digits alone write down. A run of decimal digits in front that is too long is refused before what
follows it is looked at. -/
def natural? (s : List Char) : Except IntegerFault Nat :=
  let run := (s.takeWhile isDecimal).length
  if maxDigits < run then .error (.tooLong run) else
  match natOfDigits? s with
  | some n => .ok n
  | none => .error .malformed

/-- An integer in base ten. -/
def integer? (s : List Char) : Except IntegerFault Int :=
  let (negative, body) := sign (trim s)
  match joinDigits false body with
  | none => .error .malformed
  | some ds =>
    if maxDigits < ds.length then .error (.tooLong ds.length) else
    match natOfDigits? ds with
    | some n => .ok (if negative then -(n : Int) else n)
    | none => .error .malformed

/-- The digits before a point, those behind it, and what follows. -/
def pointParts (s : List Char) : List Char × List Char × List Char :=
  let isPart (c : Char) : Bool := c == '_' || isDecimal c
  let whole := s.takeWhile isPart
  match s.dropWhile isPart with
  | '.' :: r => (whole, r.takeWhile isPart, r.dropWhile isPart)
  | r => (whole, [], r)

/-- Digits that may be missing. -/
def optionalDigits (s : List Char) : Option (List Char) := if s.isEmpty then some [] else joinDigits false s

/-- The exponent of a numeral: nothing, or an `e` with an integer. -/
def exponent? : List Char → Option Int
  | [] => some 0
  | c :: s =>
    if c == 'e' || c == 'E' then
      let (negative, body) := sign s
      match (joinDigits false body).bind natOfDigits? with
      | some n => some (if negative then -(n : Int) else n)
      | none => none
    else none

/-- The double that whole digits, fraction digits and an exponent denote. -/
def assemble (negative : Bool) (whole fraction : List Char) (exponent : Int) : Option Double :=
  (natOfDigits? (whole ++ fraction)).map fun n =>
    Double.ofScientific negative n (exponent - fraction.length)

/-- A double, or nothing if the text is no numeral. -/
def double? (s : List Char) : Option Double :=
  let (negative, body) := sign (trim s)
  let word := String.ofList (lowerAscii body)
  if word == "inf" || word == "infinity" then some (.infinite negative)
  else if word == "nan" then some .nan
  else
    let (whole, fraction, rest) := pointParts body
    match optionalDigits whole, optionalDigits fraction, exponent? rest with
    | some w, some f, some x => assemble negative w f x
    | _, _, _ => none

end Harvest.Numeral
