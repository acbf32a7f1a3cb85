import Harvest.Validation.Issue
import Harvest.Value.Basic
import Harvest.Number.Numeral
import Harvest.Text.Casing

/-
  Reading typed values leniently.

  A text is taken as it is. An integer may be a truth value, a double without fraction or a text; a truth value may be
  one of the numbers 0 and 1 or a word. What does not fit gives a complaint.
-/
namespace Harvest.Coerce
open Text

/-- A reader of values. -/
abbrev Reader (α : Type) := Value → Except Complaint α

/-- A text. -/
def text : Reader String
  | .text s => .ok s
  | _ => .error .notText

/-- One of some words, each with what it stands for. -/
def among {α : Type} (choices : List (String × α)) : Reader α
  | .text s =>
    match choices.lookup s with
    | some a => .ok a
    | none => .error (.notAmong (choices.map (·.1)))
  | _ => .error (.notAmong (choices.map (·.1)))

/-- A value that may be absent. -/
def optional {α : Type} (read : Reader α) : Reader (Option α)
  | .null => .ok none
  | v => (read v).map some

/-- The least and the greatest number of 64 bits with a sign. -/
def fits (i : Int) : Bool := -(Int.pow 2 63) ≤ i && i < Int.pow 2 63

/-- The whole number of 64 bits that a double is. -/
def ofDouble (x : Double) : Except Complaint Int :=
  match x with
  | .nan | .infinite _ => .error .integerInfinite
  | x =>
    match x.whole? with
    | none => .error .integerFraction
    | some i => if -(Int.pow 2 63) < i && i < Int.pow 2 63 then .ok i else .error .integerSize

/-! ## Integers -/

/-- A blank that may stand around an integer. -/
def isMargin (c : Char) : Bool := isBlank c && !(28 ≤ c.toNat && c.toNat ≤ 31)

/-- Without the blanks at either end. -/
def trimMargin (s : List Char) : List Char := ((s.dropWhile isMargin).reverse.dropWhile isMargin).reverse

/-- Without a point that only zeros follow. -/
def withoutZeros (s : List Char) : List Char :=
  match splitFirst '.' s with
  | (whole, some zeros) => if !zeros.isEmpty && zeros.all (· == '0') then whole else s
  | (whole, none) => whole

/-- An integer written in digits of ASCII: a sign, single low lines between digits, and perhaps a point with zeros. -/
def ofText (s : String) : Except Complaint Int :=
  let (negative, body) := Numeral.sign (trimMargin s.toList)
  match (if body.all (·.toNat < 0x80) then Numeral.joinDigits false (withoutZeros body) else none) with
  | none => .error .integerText
  | some ds =>
    if Numeral.maxDigits < ds.length then .error .integerSize else
    match Numeral.natOfDigits? ds with
    | some n => .ok (if negative then -(n : Int) else n)
    | none => .error .integerText

/-- An integer. -/
def integer : Reader Int
  | .int i => .ok i
  | .bool b => .ok (if b then 1 else 0)
  | .real x => ofDouble x
  | .text s => ofText s
  | _ => .error .notInteger

/-! ## Truth values -/

/-- The truth value of a number. -/
def truthOfInt (i : Int) : Except Complaint Bool :=
  if i = 0 then .ok false else if i = 1 then .ok true else .error .truthText

/-- The words for truth values. -/
def truthWords : List (String × Bool) :=
  [("0", false), ("off", false), ("f", false), ("false", false), ("n", false), ("no", false),
   ("1", true), ("on", true), ("t", true), ("true", true), ("y", true), ("yes", true)]

/-- A truth value. -/
def truth : Reader Bool
  | .bool b => .ok b
  | .int i => if fits i then truthOfInt i else .error .notTruth
  | .real x =>
    match ofDouble x with
    | .ok i => truthOfInt i
    | .error _ => .error .notTruth
  | .text s =>
    match truthWords.lookup (String.ofList (lowerAscii s.toList)) with
    | some b => .ok b
    | none => .error .truthText
  | _ => .error .notTruth

end Harvest.Coerce
