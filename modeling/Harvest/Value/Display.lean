import Harvest.Value.Basic
import Harvest.Number.Numeral
import Harvest.Number.Shortest
import Harvest.Text.Quoted

/-
  Values as text: `display` shows a text as it is, `shown` puts it in quotes, as it stands inside lists and mappings.
  An integer of very many digits is not written, so a value that holds one cannot be shown (`isShowable`).
-/
namespace Harvest.Value

/-- Texts with a comma and a space between them. -/
def commaSeparated : List String → String
  | [] => ""
  | [s] => s
  | s :: t :: r => s ++ ", " ++ commaSeparated (t :: r)

/-- Texts between brackets; a tuple of one has a comma behind. -/
def tupleText : List String → String
  | [s] => "(" ++ s ++ ",)"
  | ss => "(" ++ commaSeparated ss ++ ")"

/-- A root selector in quotes, or the word for absence. -/
def rootText : Option String → String
  | none => "None"
  | some r => Text.quotedString r

/-- Items of a list schema between the marks of a list. -/
def itemsText : List String → String
  | [i] => i
  | is => "ArrayConcat(parts=" ++ tupleText is ++ ")"

mutual

/-- A compiled schema as it stands inside others. -/
def schemaText {σ : Type} : Schema σ → String
  | .text e => "StringSelector(expression=" ++ Text.quotedString e ++ ")"
  | .mapping m => mappingText m
  | .list is => itemsText (itemTexts is)

/-- A compiled mapping; its source is not shown. -/
def mappingText {σ : Type} : Mapping σ → String
  | .mk r fs _ => "FieldMapping(fields=" ++ tupleText (fieldTexts fs) ++ ", root=" ++ rootText r ++ ")"

/-- Each item of a list schema. -/
def itemTexts {σ : Type} : List (Item σ) → List String
  | [] => []
  | .text e :: is => ("ArrayOf(item=StringSelector(expression=" ++ Text.quotedString e ++ "))") :: itemTexts is
  | .mapping m :: is => ("ArrayOf(item=" ++ mappingText m ++ ")") :: itemTexts is

/-- Each field of a compiled mapping. -/
def fieldTexts {σ : Type} : List (String × Schema σ) → List String
  | [] => []
  | (k, s) :: fs => ("(" ++ Text.quotedString k ++ ", " ++ schemaText s ++ ")") :: fieldTexts fs

end

mutual

/-- A value as it stands inside others. -/
def shown : Value → String
  | .null => "None"
  | .bool b => if b then "True" else "False"
  | .int i => toString i
  | .real x => x.text
  | .text s => Text.quotedString s
  | .list xs => "[" ++ commaSeparated (shownAll xs) ++ "]"
  | .tuple xs => tupleText (shownAll xs)
  | .map es => "\x7b" ++ commaSeparated (shownEntries es) ++ "\x7d"
  | .schema s => schemaText s
  | .other k => k

/-- Each value of a list. -/
def shownAll : List Value → List String
  | [] => []
  | v :: vs => shown v :: shownAll vs

/-- Each entry of a mapping. -/
def shownEntries : List (Value × Value) → List String
  | [] => []
  | (k, v) :: es => (shown k ++ ": " ++ shown v) :: shownEntries es

end

mutual

/-- Whether a value can be shown: no integer in it has more digits than one is written with. -/
def isShowable : Value → Bool
  | .int i => decide (i.natAbs < Nat.pow 10 Numeral.maxDigits)
  | .list xs => areShowable xs
  | .tuple xs => areShowable xs
  | .map es => entriesShowable es
  | _ => true

/-- The same of each value of a list. -/
def areShowable : List Value → Bool
  | [] => true
  | v :: vs => isShowable v && areShowable vs

/-- The same of each entry of a mapping. -/
def entriesShowable : List (Value × Value) → Bool
  | [] => true
  | (k, v) :: es => isShowable k && isShowable v && entriesShowable es

end

/-- A value as text. -/
def display : Value → String
  | .text s => s
  | v => shown v

end Harvest.Value
