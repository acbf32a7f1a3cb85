import Harvest.Number.Double

/-
  The text of a double: the fewest decimal digits that read back as it.

  A finite double stands for the interval of reals that round to it; its ends belong to it when the mantissa is even.
  `shortest` takes the coarsest decimal grid that has a point in the interval, and of the grid's points the one nearest
  to the value. The style of the text is one record, `Double.style`.
-/
namespace Harvest.Double

/-- `a / b ≤ c / d`. -/
def ratioLe (a b c d : Nat) : Bool := a * d ≤ c * b

/-- `a / b < c / d`. -/
def ratioLt (a b c d : Nat) : Bool := a * d < c * b

/-- The ends of the interval that rounds to `m · 2^e`, as quotients with one denominator: low, value, high. -/
def interval (m : Nat) (e : Int) : Nat × Nat × Nat × Nat :=
  let below := if m = Nat.pow 2 52 && minExponent < e then 1 else 2
  let (scale, den) := if 2 ≤ e then (Nat.pow 2 (e - 2).toNat, 1) else (1, Nat.pow 2 (2 - e).toNat)
  ((4 * m - below) * scale, 4 * m * scale, (4 * m + 2) * scale, den)

/-- The point `n · 10^p` of a grid as a quotient. -/
def gridPoint (n : Nat) (p : Int) : Nat × Nat :=
  if 0 ≤ p then (n * Nat.pow 10 p.toNat, 1) else (n, Nat.pow 10 (-p).toNat)

/-- Of the two points of the grid `10^p` around the value, the nearer one that lies in the interval; a tie goes to the
even point. -/
def onGrid (m : Nat) (e : Int) (p : Int) : Option Nat :=
  let (low, value, high, den) := interval m e
  let (vn, vd) := if 0 ≤ p then (value, den * Nat.pow 10 p.toNat) else (value * Nat.pow 10 (-p).toNat, den)
  let q := vn / vd
  let closed := m % 2 == 0
  let inside (n : Nat) : Bool :=
    let (a, b) := gridPoint n p
    if closed then ratioLe low den a b && ratioLe a b high den else ratioLt low den a b && ratioLt a b high den
  let r := vn % vd
  let nearer := if 2 * r < vd then q else if vd < 2 * r then q + 1 else q + q % 2
  let other := if nearer = q then q + 1 else q
  if inside nearer then some nearer else if inside other then some other else none

/-- The first grid of a list that has a point in the interval, with that point. -/
def firstGrid (m : Nat) (e : Int) : List Int → Nat × Int
  | [] => (0, 0)
  | p :: ps =>
    match onGrid m e p with
    | some n => (n, p)
    | none => firstGrid m e ps

/-- The power of ten below the value `m · 2^e`: `10^k ≤ m · 2^e < 10^(k+1)`. -/
def leadingPower (m : Nat) (e : Int) : Int :=
  let (n, d) := magnitude m e
  if d ≤ n then ((Nat.toDigits 10 (n / d)).length : Int) - 1
  else -((Nat.toDigits 10 ((d - 1) / n)).length : Int)

/-- The digits and the power of ten of the shortest decimal that reads back as `m · 2^e`, for `m ≠ 0`. -/
def shortest (m : Nat) (e : Int) : Nat × Int :=
  let top := leadingPower m e + 1
  firstGrid m e ((List.range 19).map fun (k : Nat) => top - (k : Int))

/-- How doubles are written. -/
structure Style where
  /-- From this power of ten on, and below the next one, an exponent is written. -/
  exponentFrom : Int
  exponentBelow : Int
  /-- The least number of digits of an exponent. -/
  exponentDigits : Nat

/-- An exponent is written from 10^16 on and below 10^-4, with a sign and at least two digits. -/
def style : Style := ⟨16, -4, 2⟩

/-- Digits without the zeros behind, and the power of ten that makes up for them. -/
def stripZeros (digits : List Char) (power : Int) : List Char × Int :=
  let kept := (digits.reverse.dropWhile (· == '0')).reverse
  (kept, power + ((digits.length - kept.length : Nat) : Int))

/-- An exponent with its sign. -/
def exponentText (st : Style) (x : Int) : List Char :=
  let ds := Nat.toDigits 10 x.natAbs
  (if x < 0 then '-' else '+') :: (List.replicate (st.exponentDigits - ds.length) '0' ++ ds)

/-- Digits with a power of ten, in the given style. -/
def decimalText (st : Style) (digits : List Char) (power : Int) : List Char :=
  let (ds, p) := stripZeros digits power
  let lead := p + ds.length - 1
  if lead < st.exponentBelow || st.exponentFrom ≤ lead then
    let tail := ds.drop 1
    ds.take 1 ++ (if tail.isEmpty then [] else '.' :: tail) ++ 'e' :: exponentText st lead
  else if 0 ≤ p then ds ++ List.replicate p.toNat '0' ++ ['.', '0']
  else if 0 ≤ lead then ds.take (lead + 1).toNat ++ '.' :: ds.drop (lead + 1).toNat
  else '0' :: '.' :: (List.replicate (-lead - 1).toNat '0' ++ ds)

/-- The text of a double. -/
def text : Double → String
  | .nan => "nan"
  | .infinite s => if s then "-inf" else "inf"
  | .finite s m e =>
    let sign := if s then "-" else ""
    if m = 0 then sign ++ "0.0" else
    let (n, p) := shortest m e
    sign ++ String.ofList (decimalText style (Nat.toDigits 10 n) p)

end Harvest.Double
