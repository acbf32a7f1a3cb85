import Harvest.Markup.Token

/-
  From tokens to a tree.

  A closing tag closes the innermost open element of its name with all that is open inside; one that closes nothing is
  passed over. At the end all is closed. A text of blanks alone is written as one line end if it holds one, else as one
  space, except where an element keeps blanks.
-/
namespace Harvest.Markup
open Text

/-- An element that is still open, with its children so far, the latest first. -/
structure Pending where
  tag : Tag
  done : List Node

/-- A tree as it grows: the open elements, the innermost first, and the nodes outside them, the latest first. -/
structure Growth where
  pending : List Pending := []
  done : List Node := []

namespace Growth

/-- The tree with one more node in the innermost open element. -/
def add (g : Growth) (n : Node) : Growth :=
  match g.pending with
  | [] => { g with done := n :: g.done }
  | p :: ps => { g with pending := { p with done := n :: p.done } :: ps }

/-- The tree with the innermost open element closed. -/
def close (g : Growth) : Growth :=
  match g.pending with
  | [] => g
  | p :: ps => add { g with pending := ps } (.element p.tag p.done.reverse)

/-- The tree with a number of elements closed. -/
def closeMany : Nat → Growth → Growth
  | 0, g => g
  | n + 1, g => closeMany n g.close

/-- The tree after a closing tag. -/
def closeName (g : Growth) (name : String) : Growth :=
  match g.pending.findIdx? (·.tag.name == name) with
  | none => g
  | some i => closeMany (i + 1) g

/-- Whether blanks are kept here. -/
def keepsBlanks (g : Growth) : Bool := g.pending.any fun p => keepingNames.contains p.tag.name

/-- A text as it stands in the tree. -/
def settle (g : Growth) (s : List Char) : String :=
  if s.all isGap && !g.keepsBlanks then (if s.contains '\n' then "\n" else " ") else String.ofList s

/-- The tree after a token. -/
def step (g : Growth) : Token → Growth
  | .text [] => g
  | .text s => g.add (.text (g.settle s))
  | .comment s => g.add (.comment (String.ofList s))
  | .badSection _ => g
  | .opening t closed =>
    if closed || voidNames.contains t.name then g.add (.element t []) else { g with pending := ⟨t, []⟩ :: g.pending }
  | .closing name => g.closeName name

/-- The nodes, with all that is open closed. -/
def finish (g : Growth) : List Node := (closeMany g.pending.length g).done.reverse

end Growth

/-- The tree of a row of tokens. -/
def treeOf (ts : List Token) : List Node := (ts.foldl Growth.step {}).finish

end Harvest.Markup
