import Harvest.Number.Numeral

/-
  Sizes written for people, such as `4.5 GB`.

  A size is an amount, blanks and a unit: perhaps one of K, M, G, T, perhaps an I, and a B, in capitals.
    1. `find?` takes the first amount of a text that a unit follows.
    2. `factor` is the number of bytes that a unit stands for, from a table of the units without an I.
-/
namespace Harvest.Size
open Harvest.Text

/-- A character of an amount. -/
def isAmount (c : Char) : Bool := c == '.' || isDecimal c

/-- The letters that scale a unit, each by 1024 times the one before. -/
def scaleLetters : List Char := ['K', 'M', 'G', 'T']

/-- The scale letter in front of a text, if there is one, and the rest. -/
def takeScale : List Char → List Char × List Char
  | [] => ([], [])
  | c :: s => if scaleLetters.contains c then ([c], s) else ([], c :: s)

/-- The I in front of a text, if there is one, and the rest. -/
def takeBinaryMark : List Char → List Char × List Char
  | 'I' :: s => (['I'], s)
  | s => ([], s)

/-- The unit in front of a text. -/
def unit? (s : List Char) : Option (List Char) :=
  let (scale, behindScale) := takeScale s
  let (mark, rest) := takeBinaryMark behindScale
  if rest.head? = some 'B' then some (scale ++ mark ++ ['B']) else none

/-- The first amount that a unit follows, with the unit. `amount` is the amount under way, read backwards. -/
def findFrom (amount : List Char) : List Char → Option (List Char × List Char)
  | [] => none
  | c :: s =>
    if isAmount c then findFrom (c :: amount) s
    else if amount.isEmpty then findFrom [] s
    else ((unit? (trimLeft (c :: s))).map (amount.reverse, ·)).or (findFrom [] s)

/-- The first size of a text: its amount and its unit. -/
def find? (s : List Char) : Option (List Char × List Char) := findFrom [] s

/-- The bytes that units without an I stand for. -/
def factors : List (List Char × Nat) :=
  [(['B'], 1), (['K', 'B'], 1024), (['M', 'B'], Nat.pow 1024 2), (['G', 'B'], Nat.pow 1024 3),
   (['T', 'B'], Nat.pow 1024 4)]

/-- The bytes that a unit stands for in the table, where no I counts. -/
def factor? (unit : List Char) : Option Nat := factors.lookup (unit.filter (· != 'I'))

/-- The bytes that a unit stands for; one that is not in the table counts as one byte. -/
def factor (unit : List Char) : Nat := (factor? unit).getD 1

end Harvest.Size
