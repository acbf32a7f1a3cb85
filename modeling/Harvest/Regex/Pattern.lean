import Harvest.Text.Alphanumeric
import Harvest.Text.Digit
import Harvest.Text.Blank
import Harvest.Text.Casing

/-
  Regular expressions as trees.

  Options that change the meaning of a part (case, lines, the reach of the dot, ASCII classes) are resolved when an
  expression is read, so that a tree has one meaning wherever it stands.
-/
namespace Harvest.Regex
open Harvest.Text

/-- A class of characters. -/
inductive Category where
  | digit
  | blank
  | word
  deriving DecidableEq, Repr

/-- Whether a character belongs to a class, of all scripts or of ASCII only. -/
def Category.has (k : Category) (ascii : Bool) (c : Char) : Bool :=
  (!ascii || c.toNat < 0x80) && match k with
    | .digit => isDecimal c
    | .blank => isBlank c && (!ascii || c.toNat ≥ 0x20 || c.toNat ≤ 13)
    | .word => isWord c

/-- A member of a set in brackets. -/
inductive Member where
  | char (c : Char)
  | range (low high : Char)
  | category (k : Category) (ascii : Bool) (outside : Bool)
  deriving DecidableEq, Repr

/-- Whether a member covers a character. -/
def Member.has : Member → Char → Bool
  | .char d, c => c == d
  | .range a b, c => a ≤ c && c ≤ b
  | .category k ascii outside, c => k.has ascii c != outside

/-- A place that takes no room. -/
inductive Anchor where
  | textStart
  | lineStart
  | textEnd
  /-- The end, or before a line end that is the last character. -/
  | lastLineEnd
  | lineEnd
  | wordEdge (ascii : Bool) (inside : Bool)
  deriving DecidableEq, Repr

/-- How a repetition chooses its count. -/
inductive Greed where
  | greedy
  | reluctant
  | possessive
  deriving DecidableEq, Repr

/-- A regular expression. -/
inductive Pattern where
  | nothing
  | char (c : Char) (anyCase : Bool)
  | any (lines : Bool)
  | set (outside : Bool) (members : List Member) (anyCase : Bool)
  | anchor (a : Anchor)
  | cat (p q : Pattern)
  | alt (p q : Pattern)
  | many (least : Nat) (most : Option Nat) (greed : Greed) (p : Pattern)
  | group (index : Nat) (p : Pattern)
  | enclosed (p : Pattern)
  | atomic (p : Pattern)
  | again (index : Nat) (anyCase : Bool)
  | ahead (negative : Bool) (p : Pattern)
  | behind (negative : Bool) (width : Nat) (p : Pattern)
  | branch (index : Nat) (yes no : Pattern)
  deriving DecidableEq, Repr, Inhabited

/-- The least and the greatest length of a text that a part takes; none for no bound. -/
abbrev Width := Nat × Option Nat

/-- The width of two parts side by side. -/
def Width.add (v w : Width) : Width := (v.1 + w.1, do return (← v.2) + (← w.2))

/-- The width of either of two parts. -/
def Width.either (v w : Width) : Width := (min v.1 w.1, do return max (← v.2) (← w.2))

/-- The width of a repetition. -/
def Width.repeated (least : Nat) (most : Option Nat) (w : Width) : Width :=
  (least * w.1, match most, w.2 with
    | none, some 0 => some 0
    | none, _ => none
    | some n, h => h.map (n * ·))

namespace Pattern

/-- The width of a part, given the widths of the groups that it refers to. -/
def width (groups : Nat → Width) : Pattern → Width
  | nothing => (0, some 0)
  | char _ _ | any _ | set _ _ _ => (1, some 1)
  | anchor _ | ahead _ _ | behind _ _ _ => (0, some 0)
  | cat p q => (p.width groups).add (q.width groups)
  | alt p q => (p.width groups).either (q.width groups)
  | many l m _ p => (p.width groups).repeated l m
  | group _ p | enclosed p | atomic p => p.width groups
  | again i _ => groups i
  | branch _ p q => (p.width groups).either (q.width groups)

end Pattern

/-- An expression that has been read: its text, its tree and the number of its groups. -/
structure Expression where
  source : String
  pattern : Pattern
  groups : Nat
  deriving DecidableEq, Inhabited

end Harvest.Regex
