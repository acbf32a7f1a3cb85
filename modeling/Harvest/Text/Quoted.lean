import Harvest.Text.Printable
import Harvest.Text.Search

/-
  Text shown in quotes, as in messages.

  Single quotes stand around the text, or double quotes when it holds a single quote and no double one. The quote in
  use, the backslash, the three line controls and every character that cannot be shown are written as escapes.
-/
namespace Harvest.Text

/-- The quote to put around a text. -/
def quoteFor (s : List Char) : Char := if s.contains '\'' && !s.contains '"' then '"' else '\''

/-- The last `width` hexadecimal digits of a number. -/
def hex (width n : Nat) : List Char :=
  let ds := Nat.toDigits 16 n
  List.replicate (width - ds.length) '0' ++ ds

/-- One character between quotes. -/
def escapeChar (quote c : Char) : List Char :=
  if c = quote || c = '\\' then ['\\', c]
  else if c = '\n' then ['\\', 'n']
  else if c = '\r' then ['\\', 'r']
  else if c = '\t' then ['\\', 't']
  else if isPrintable c then [c]
  else if c.toNat < 0x100 then '\\' :: 'x' :: hex 2 c.toNat
  else if c.toNat < 0x10000 then '\\' :: 'u' :: hex 4 c.toNat
  else '\\' :: 'U' :: hex 8 c.toNat

/-- A text in quotes. -/
def quoted (s : List Char) : List Char :=
  let q := quoteFor s
  q :: (s.flatMap (escapeChar q) ++ [q])

/-- A string in quotes. -/
def quotedString (s : String) : String := String.ofList (quoted s.toList)

end Harvest.Text
