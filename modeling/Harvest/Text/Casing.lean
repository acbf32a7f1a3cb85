import Harvest.Text.Casing.Table

/-
  Upper and lower case of texts.

    1. `upper` maps every character to its full upper case, which may be longer.
    2. `lower` likewise; a capital sigma that ends a word becomes the final small sigma.
    3. `lowerAscii` and `fold` compare texts without regard to case, in ASCII and in all scripts.
-/
namespace Harvest.Text
open Casing

/-- What a run makes of a code point it covers. -/
def Casing.Run.mapped? (r : Run) (n : Nat) : Option Char :=
  if r.first ≤ n && n ≤ r.last && (n - r.first) % r.step == 0 then some (Char.ofNat (n + r.offset).toNat) else none

/-- A character through a table of single mappings. -/
def mapCase (runs : Array Run) (c : Char) : Char := (runs.findSome? (·.mapped? c.toNat)).getD c

/-- The full upper case of a character. -/
def upperChar (c : Char) : List Char :=
  if c.toNat < 0x80 then [c.toUpper] else
  match upperExpansions.find? (·.1 == c.toNat) with
  | some (_, cs) => cs.map Char.ofNat
  | none => [mapCase upperRuns c]

/-- The full lower case of a character that stands alone. -/
def lowerChar (c : Char) : List Char :=
  if c.toNat < 0x80 then [c.toLower] else
  match lowerExpansions.find? (·.1 == c.toNat) with
  | some (_, cs) => cs.map Char.ofNat
  | none => [mapCase lowerRuns c]

/-- Every character in upper case. -/
def upper (s : List Char) : List Char := s.flatMap upperChar

/-- Whether the first character that is not ignorable is a cased letter. -/
def meetsCased (s : List Char) : Bool :=
  match s.dropWhile (ignorableRanges.has ·.toNat) with
  | [] => false
  | c :: _ => casedRanges.has c.toNat

/-- Lower case; `before` holds the characters already passed, the last one first. -/
def lowerFrom (before : List Char) : List Char → List Char
  | [] => []
  | c :: s =>
    let low := if c == 'Σ' then (if meetsCased before && !meetsCased s then ['ς'] else ['σ']) else lowerChar c
    low ++ lowerFrom (c :: before) s

/-- Every character in lower case. -/
def lower (s : List Char) : List Char := lowerFrom [] s

/-- Lower case of the ASCII letters; all else as it is. -/
def lowerAscii (s : List Char) : List Char := s.map fun c => if c.toNat < 0x80 then c.toLower else c

/-- A form that two characters share when they differ in case only. -/
def fold (c : Char) : Char :=
  match c with
  | 'ı' => 'i' | 'İ' => 'i' | 'ſ' => 's' | 'K' => 'k' | 'Å' => 'å' | 'µ' => 'μ' | 'ς' => 'σ' | 'ϐ' => 'β' | 'ϑ' => 'θ'
  | 'ϕ' => 'φ' | 'ϖ' => 'π' | 'ϰ' => 'κ' | 'ϱ' => 'ρ' | 'ϵ' => 'ε' | 'ẛ' => 'ṡ'
  | c => match lowerChar c with
    | [d] => d
    | _ => c

end Harvest.Text
