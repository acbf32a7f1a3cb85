import Harvest.Markup.Node
import Harvest.Text.Casing

/-
  Nodes as markup.

  Attributes stand in the order of their names, each with a value. Ampersands and angle brackets are written as
  references, except in the text of scripts and styles. A value with double quotes stands in single ones, and one that
  has both in double ones, its double quotes written as references. Elements that never have children close at once.
  A page declares the encoding that it is written in, which is UTF-8.
-/
namespace Harvest.Markup
open Text

/-- One character of text. -/
def escapeChar (c : Char) : List Char :=
  match c with
  | '&' => "&amp;".toList
  | '<' => "&lt;".toList
  | '>' => "&gt;".toList
  | c => [c]

/-- A text with ampersands and angle brackets as references. -/
def escape (s : String) : String := String.ofList (s.toList.flatMap escapeChar)

/-- A value in quotes. -/
def quoteValue (v : String) : String :=
  let cs := v.toList
  if !cs.contains '"' then "\"" ++ v ++ "\""
  else if !cs.contains '\'' then "'" ++ v ++ "'"
  else "\"" ++ String.ofList (replaceAll ['"'] "&quot;".toList cs) ++ "\""

/-- An attribute comes before another by the code points of their names. -/
def nameLe (a b : String × String) : Bool := a.1 ≤ b.1

/-- Whether the encoding stands at the end of what comes before `charset=` in a declaration. -/
def opensCharset (before : List Char) : Bool := before.head?.all fun c => c == ';' || isBlank c

/-- A content declaration with its encodings replaced; `before` is what was passed, the last character first. -/
def declareFrom : Nat → List Char → List Char → List Char
  | _, _, [] => []
  | skip + 1, before, c :: s => declareFrom skip (c :: before) s
  | 0, before, c :: s =>
    match dropText? "charset=".toList (c :: s) with
    | some rest =>
      if opensCharset before then
        let value := rest.takeWhile (· != ';')
        "charset=utf-8".toList ++ declareFrom (7 + value.length) (c :: before) s
      else c :: declareFrom 0 (c :: before) s
    | none => c :: declareFrom 0 (c :: before) s

/-- The attributes of a tag, those that declare an encoding with the one in use. -/
def declared (t : Tag) : List (String × String) :=
  if t.name != "meta" then t.attributes
  else if (t.attribute? "charset").isSome then
    t.attributes.map fun (k, v) => (k, if k == "charset" then "utf-8" else v)
  else if (t.attribute? "http-equiv").any fun v => lowerAscii v.toList == "content-type".toList then
    t.attributes.map fun (k, v) => (k, if k == "content" then String.ofList (declareFrom 0 [] v.toList) else v)
  else t.attributes

/-- The attributes of a tag as markup. -/
def attributesText (t : Tag) : String :=
  ((declared t).mergeSort nameLe).foldl (fun s (k, v) => s ++ " " ++ k ++ "=" ++ quoteValue (escape v)) ""

/-- Nodes as markup; `raw` says that texts are written as they are. -/
def markupOf (raw : Bool) : List Node → String
  | [] => ""
  | .text s :: ns => (if raw then s else escape s) ++ markupOf raw ns
  | .comment s :: ns => "<!--" ++ s ++ "-->" ++ markupOf raw ns
  | .element t cs :: ns =>
    let opening := "<" ++ t.name ++ attributesText t
    let whole :=
      if cs.isEmpty && voidNames.contains t.name then opening ++ "/>"
      else opening ++ ">" ++ markupOf (rawNames.contains t.name) cs ++ "</" ++ t.name ++ ">"
    whole ++ markupOf raw ns

end Harvest.Markup
