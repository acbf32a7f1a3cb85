import Harvest.Value.Basic
import Harvest.Number.Shortest
import Harvest.Text.Quoted

/-
  Writing JSON.

  Without an indentation a value stands on one line, with a blank behind commas and colons. With one, every item and
  every entry has a line of its own, indented once more for every list or mapping around it. Characters outside ASCII
  are written as they are. What JSON has no notation for is written as the text that shows its kind.
-/
namespace Harvest.Json
open Text

/-- A character of a string. -/
def writeChar (c : Char) : List Char :=
  match c with
  | '"' => ['\\', '"']
  | '\\' => ['\\', '\\']
  | '\n' => ['\\', 'n']
  | '\r' => ['\\', 'r']
  | '\t' => ['\\', 't']
  | '\x0c' => ['\\', 'f']
  | '\x08' => ['\\', 'b']
  | c => if c.toNat < 0x20 then '\\' :: 'u' :: hex 4 c.toNat else [c]

/-- A string in quotes. -/
def writeString (s : List Char) : List Char := '"' :: (s.flatMap writeChar ++ ['"'])

/-- A double; the values that are not finite are words. -/
def writeDouble : Double → List Char
  | .nan => "NaN".toList
  | .infinite s => if s then "-Infinity".toList else "Infinity".toList
  | x => x.text.toList

/-- A truth value. -/
def writeBool (b : Bool) : List Char := if b then "true".toList else "false".toList

/-- The name of an entry. -/
def nameOf : Value → List Char
  | .text s => s.toList
  | .null => "null".toList
  | .bool b => writeBool b
  | .int i => (toString i).toList
  | .real x => writeDouble x
  | v => v.kind.toList

/-- The line end in front of an item at a depth. -/
def lineStart (indent : Option Nat) (depth : Nat) : List Char :=
  match indent with
  | none => []
  | some n => '\n' :: List.replicate (n * depth) ' '

/-- What stands between two items. -/
def comma : Option Nat → List Char
  | none => [',', ' ']
  | some _ => [',']

/-- Items between brackets, each at a depth of one more. -/
def bracketed (indent : Option Nat) (depth : Nat) (opening closing : Char) (items : List (List Char)) : List Char :=
  match items with
  | [] => [opening, closing]
  | items =>
    opening :: (join (comma indent) (items.map (lineStart indent (depth + 1) ++ ·)) ++ lineStart indent depth ++ [closing])

mutual

/-- A value that stands inside `depth` others. -/
def writeAt (indent : Option Nat) (depth : Nat) : Value → List Char
  | .null => "null".toList
  | .bool b => writeBool b
  | .int i => (toString i).toList
  | .real x => writeDouble x
  | .text s => writeString s.toList
  | .list vs => bracketed indent depth '[' ']' (writeItems indent (depth + 1) vs)
  | .tuple vs => bracketed indent depth '[' ']' (writeItems indent (depth + 1) vs)
  | .map es => bracketed indent depth '\x7b' '\x7d' (writeEntries indent (depth + 1) es)
  | .schema s => writeString (Value.schemaKind s).toList
  | .other k => writeString k.toList

/-- Each item of a list. -/
def writeItems (indent : Option Nat) (depth : Nat) : List Value → List (List Char)
  | [] => []
  | v :: vs => writeAt indent depth v :: writeItems indent depth vs

/-- Each entry of a mapping. -/
def writeEntries (indent : Option Nat) (depth : Nat) : List (Value × Value) → List (List Char)
  | [] => []
  | (k, v) :: es => (writeString (nameOf k) ++ ':' :: ' ' :: writeAt indent depth v) :: writeEntries indent depth es

end

/-- A value as JSON text. -/
def write (indent : Option Nat) (v : Value) : String := String.ofList (writeAt indent 0 v)

end Harvest.Json
