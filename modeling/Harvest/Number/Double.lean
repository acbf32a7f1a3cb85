/-
  Double-precision numbers, exactly.

  A finite double is `± m · 2^e` with `m < 2^53` and `-1074 ≤ e`; the mantissa is as large as these bounds allow, so
  that every value but zero has one representation. All arithmetic is on natural numbers:
    1. `Double.ofRatio` rounds a quotient to the nearest double, ties to the even mantissa.
    2. `Double.ofScientific` does so for a decimal.
    3. `Double.mul` and `Double.add` are rounded products and sums, `Double.truncate?` is the whole part.
-/
namespace Harvest

/-- A double-precision number. -/
inductive Double where
  | finite (negative : Bool) (mantissa : Nat) (exponent : Int)
  | infinite (negative : Bool)
  | nan
  deriving DecidableEq, Repr, Inhabited

namespace Double

/-- The least exponent. -/
def minExponent : Int := -1074

/-- The greatest exponent. -/
def maxExponent : Int := 971

/-- Zero with a sign. -/
def zero (negative : Bool) : Double := .finite negative 0 minExponent

/-- `num / den` to the nearest whole number, a half to the even one. -/
def roundHalfEven (num den : Nat) : Nat :=
  let q := num / den
  let r := num % den
  if 2 * r < den then q else if den < 2 * r then q + 1 else q + q % 2

/-- `num / den · 2^(-e)` as a quotient. -/
def scaled (num den : Nat) (e : Int) : Nat × Nat :=
  if 0 ≤ e then (num, den * Nat.pow 2 e.toNat) else (num * Nat.pow 2 (-e).toNat, den)

/-- The exponent under which the mantissa of `num / den` is below `2^53` and as large as possible. -/
def exponentOf (num den : Nat) : Int :=
  let guess : Int := (num.log2 : Int) - (den.log2 : Int) - 53
  let (n, d) := scaled num den guess
  max minExponent (if n / d < Nat.pow 2 53 then guess else guess + 1)

/-- The double nearest to `num / den`, ties to the even mantissa. -/
def ofRatio (negative : Bool) (num den : Nat) : Double :=
  if num = 0 then zero negative else
  let e := exponentOf num den
  let (n, d) := scaled num den e
  let m := roundHalfEven n d
  let (m, e) := if m < Nat.pow 2 53 then (m, e) else (m / 2, e + 1)
  if maxExponent < e then .infinite negative else .finite negative m e

/-- The double nearest to `digits · 10^power`. Powers far out of range need no arithmetic. -/
def ofScientific (negative : Bool) (digits : Nat) (power : Int) : Double :=
  if digits = 0 then zero negative
  else if power > 400 then .infinite negative
  else if power + digits.log2 < -1200 then zero negative
  else if 0 ≤ power then ofRatio negative (digits * Nat.pow 10 power.toNat) 1
  else ofRatio negative digits (Nat.pow 10 (-power).toNat)

/-- The double nearest to a whole number. -/
def ofInt (i : Int) : Double := ofRatio (decide (i < 0)) i.natAbs 1

/-- The rounded product. -/
def mul : Double → Double → Double
  | .nan, _ | _, .nan => .nan
  | .finite s m e, .finite t n f =>
    if 0 ≤ e + f then ofRatio (s != t) (m * n * Nat.pow 2 (e + f).toNat) 1
    else ofRatio (s != t) (m * n) (Nat.pow 2 (-(e + f)).toNat)
  | .infinite s, .infinite t => .infinite (s != t)
  | .infinite s, .finite t m _ => if m = 0 then .nan else .infinite (s != t)
  | .finite s m _, .infinite t => if m = 0 then .nan else .infinite (s != t)

/-- A double with the other sign. -/
def neg : Double → Double
  | .finite s m e => .finite (!s) m e
  | .infinite s => .infinite (!s)
  | .nan => .nan

/-- The whole number `± m · 2^(e - f)`, for an exponent `f` that is not greater. -/
def raised (s : Bool) (m : Nat) (e f : Int) : Int :=
  let n : Int := (m * Nat.pow 2 (e - f).toNat : Nat)
  if s then -n else n

/-- The rounded sum. -/
def add : Double → Double → Double
  | .nan, _ | _, .nan => .nan
  | .infinite s, .infinite t => if s = t then .infinite s else .nan
  | .infinite s, .finite _ _ _ | .finite _ _ _, .infinite s => .infinite s
  | .finite s m e, .finite t n f =>
    let low := min e f
    let sum := raised s m e low + raised t n f low
    if sum = 0 then zero (s && t)
    else if 0 ≤ low then ofRatio (decide (sum < 0)) (sum.natAbs * Nat.pow 2 low.toNat) 1
    else ofRatio (decide (sum < 0)) sum.natAbs (Nat.pow 2 (-low).toNat)

/-- The magnitude as a quotient. -/
def magnitude (m : Nat) (e : Int) : Nat × Nat :=
  if 0 ≤ e then (m * Nat.pow 2 e.toNat, 1) else (m, Nat.pow 2 (-e).toNat)

/-- The whole part of a finite double. -/
def truncate? : Double → Option Int
  | .finite s m e =>
    let (n, d) := magnitude m e
    some (if s then -((n / d : Nat) : Int) else ((n / d : Nat) : Int))
  | _ => none

/-- The whole number that a finite double is, if it is one. -/
def whole? : Double → Option Int
  | .finite s m e =>
    let (n, d) := magnitude m e
    if n % d = 0 then some (if s then -((n / d : Nat) : Int) else ((n / d : Nat) : Int)) else none
  | _ => none

end Double
end Harvest
