import Harvest.Text.Blank
import Harvest.Text.Search

/-
  Invocations of filters as they are written: a name and arguments with a separator between them.

  A quote opens only at the start of a cell, blanks in front of it being dropped, and runs to the next quote of its
  kind, or to the end. The separator does not cut inside quotes, and a quote that closes leaves the cell open: what
  follows belongs to it.
-/
namespace Harvest
open Text

/-- A filter as it is named in an expression. -/
structure Invocation where
  name : String
  args : List String
  deriving DecidableEq, Repr

namespace Invocation

/-- A character that opens a quotation. -/
def isQuote (c : Char) : Bool := c == '\'' || c == '"'

/-- The cells of a text from a point on: inside a quotation that `quote` closes, or with `skip` characters of a
separator left; `cell` is the cell under way, read backwards. -/
def cellsFrom (sep : List Char) : Option Char → Nat → List Char → List Char → List (List Char)
  | _, _, cell, [] => [cell.reverse]
  | some q, _, cell, c :: s =>
    if c = q then cellsFrom sep none 0 cell s else cellsFrom sep (some q) 0 (c :: cell) s
  | none, skip + 1, cell, _ :: s => cellsFrom sep none skip cell s
  | none, 0, cell, c :: s =>
    if isQuote c && allBlank cell then cellsFrom sep (some c) 0 [] s
    else if startsWith sep (c :: s) then cell.reverse :: cellsFrom sep none (sep.length - 1) [] s
    else cellsFrom sep none 0 (c :: cell) s

/-- The cells of a text, quotes removed. -/
def cells (sep s : List Char) : List (List Char) := cellsFrom sep none 0 [] s

/-- The invocation that a text writes down: the first cell, trimmed, names the filter. -/
def read (separator text : String) : Invocation :=
  match cells separator.toList text.toList with
  | [] => ⟨"", []⟩
  | c :: cs => ⟨String.ofList (trim c), cs.map String.ofList⟩

end Invocation
end Harvest
