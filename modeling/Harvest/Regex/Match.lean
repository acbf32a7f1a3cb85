import Harvest.Regex.Pattern

/-
  Matching regular expressions, with backtracking.

  A `Place` is a point of a text together with what the groups have taken so far. `Pattern.run p k` tries the ways to
  match `p` at a place, in the order of preference, and hands each to `k` until one is accepted.
    1. `Expression.matchAt?` matches at the front of a text.
    2. `Expression.split` cuts a text at the matches, found from the left; the texts of the groups stand between the
       pieces, and an empty match cuts too, unless it touches an empty match before it.
-/
namespace Harvest.Regex
open Harvest.Text

/-- A point of a text. -/
structure Place where
  /-- What lies before, the last character first. -/
  before : List Char
  rest : List Char
  /-- The texts taken by groups, the latest first. -/
  taken : List (Nat × List Char)

namespace Place

/-- The front of a text. -/
def front (s : List Char) : Place := ⟨[], s, []⟩

/-- Whether two points of one text are the same. -/
def sameAs (p q : Place) : Bool := p.rest.length == q.rest.length

/-- The text of a group. -/
def group? (p : Place) (i : Nat) : Option (List Char) := p.taken.lookup i

/-- The point behind the next character, if that satisfies a test. -/
def step? (p : Place) (test : Char → Bool) : Option Place :=
  match p.rest with
  | [] => none
  | c :: s => if test c then some { p with before := c :: p.before, rest := s } else none

/-- The point behind a text that comes next. -/
def stepText? (same : Char → Char → Bool) : List Char → Place → Option Place
  | [], p => some p
  | c :: t, p => (p.step? (same c)).bind (stepText? same t)

/-- What lies between two points. -/
def between (p q : Place) : List Char := p.rest.take (p.rest.length - q.rest.length)

/-- The point with what a group took up to it. -/
def take (p q : Place) (i : Nat) : Place := { q with taken := (i, p.between q) :: q.taken }

/-- The point `n` characters before. -/
def back? (p : Place) (n : Nat) : Option Place :=
  if p.before.length < n then none
  else some { p with before := p.before.drop n, rest := (p.before.take n).reverse ++ p.rest }

end Place

/-- Whether a word character stands first. -/
def wordFirst (ascii : Bool) : List Char → Bool
  | [] => false
  | c :: _ => Category.word.has ascii c

/-- Whether a point is such a place. -/
def Anchor.holds : Anchor → Place → Bool
  | .textStart, p => p.before.isEmpty
  | .lineStart, p => p.before.isEmpty || p.before.head? == some '\n'
  | .textEnd, p => p.rest.isEmpty
  | .lastLineEnd, p => p.rest.isEmpty || p.rest == ['\n']
  | .lineEnd, p => p.rest.isEmpty || p.rest.head? == some '\n'
  | .wordEdge ascii inside, p => (wordFirst ascii p.before != wordFirst ascii p.rest) != inside

/-- Whether a set has a character. -/
def setHas (outside : Bool) (members : List Member) (anyCase : Bool) (c : Char) : Bool :=
  (members.any (·.has c) || (anyCase &&
    members.any fun m => m.has (fold c) || (lowerChar c).any m.has || (upperChar c).any m.has)) != outside

/-- Whether two characters are the same, perhaps but for case. -/
def sameChar (anyCase : Bool) (c d : Char) : Bool := c == d || (anyCase && fold c == fold d)

/-- A way of going on from a place. -/
abbrev Onward := Place → Option Place

/-- Repeats a part, as often as it can first. `last` is where the round before began, and a round that starts there
again is not tried; `fuel` bounds the rounds. -/
def greedily (part : Onward → Onward) (least : Nat) (most : Option Nat) (k : Onward) :
    Nat → Nat → Option Nat → Onward
  | 0, _, _, p => k p
  | fuel + 1, n, last, p =>
    if n < least then part (greedily part least most k fuel (n + 1) last) p
    else if most.all (n < ·) && last != some p.rest.length then
      match part (greedily part least most k fuel (n + 1) (some p.rest.length)) p with
      | some q => some q
      | none => k p
    else k p

/-- Repeats a part, as seldom as it can first. -/
def reluctantly (part : Onward → Onward) (least : Nat) (most : Option Nat) (k : Onward) :
    Nat → Nat → Option Nat → Onward
  | 0, _, _, p => k p
  | fuel + 1, n, last, p =>
    if n < least then part (reluctantly part least most k fuel (n + 1) last) p
    else match k p with
      | some q => some q
      | none =>
        if most.all (n < ·) && last != some p.rest.length then
          part (reluctantly part least most k fuel (n + 1) (some p.rest.length)) p
        else none

/-- More rounds than a repetition can make from a place. -/
def rounds (least : Nat) (p : Place) : Nat := least + p.rest.length + 2

/-- Tries the ways to match a pattern at a place, and takes the first that leads on. -/
def Pattern.run : Pattern → Onward → Onward
  | .nothing, k, p => k p
  | .char c anyCase, k, p => (p.step? (sameChar anyCase c)).bind k
  | .any lines, k, p => (p.step? fun c => lines || c != '\n').bind k
  | .set outside ms anyCase, k, p => (p.step? (setHas outside ms anyCase)).bind k
  | .anchor a, k, p => if a.holds p then k p else none
  | .cat f g, k, p => f.run (g.run k) p
  | .alt f g, k, p =>
    match f.run k p with
    | some q => some q
    | none => g.run k p
  | .many least most greed f, k, p =>
    match greed with
    | .greedy => greedily f.run least most k (rounds least p) 0 none p
    | .reluctant => reluctantly f.run least most k (rounds least p) 0 none p
    | .possessive => (greedily f.run least most some (rounds least p) 0 none p).bind k
  | .group i f, k, p => f.run (fun q => k (p.take q i)) p
  | .enclosed f, k, p => f.run k p
  | .atomic f, k, p => (f.run some p).bind k
  | .again i anyCase, k, p =>
    match p.group? i with
    | none => none
    | some t => (p.stepText? (sameChar anyCase) t).bind k
  | .ahead negative f, k, p =>
    match f.run some p, negative with
    | some q, false => k { p with taken := q.taken }
    | none, true => k p
    | _, _ => none
  | .behind negative width f, k, p =>
    match (p.back? width).bind (f.run some), negative with
    | some q, false => k { p with taken := q.taken }
    | none, true => k p
    | _, _ => none
  | .branch i f g, k, p => if (p.group? i).isSome then f.run k p else g.run k p

namespace Expression

/-- The texts of the groups after a match, in order. -/
def groupTexts (e : Expression) (p : Place) : List (Option (List Char)) :=
  (List.range e.groups).map fun i => p.group? (i + 1)

/-- The end of a match at the front of a text. -/
def matchAt? (e : Expression) (s : List Char) : Option Place := e.pattern.run some (Place.front s)

/-- A match that begins at a place; one that takes nothing only where `empty` allows it. -/
def matchHere? (e : Expression) (empty : Bool) (p : Place) : Option Place :=
  e.pattern.run (fun q => if !empty && q.sameAs p then none else some q) { p with taken := [] }

/-- The first match from a place on: where it begins and where it ends. -/
def search? (e : Expression) (empty : Bool) (before : List Char) : List Char → Option (Place × Place)
  | [] =>
    let p : Place := ⟨before, [], []⟩
    (e.matchHere? empty p).map (p, ·)
  | c :: s =>
    let p : Place := ⟨before, c :: s, []⟩
    match e.matchHere? empty p with
    | some q => some (p, q)
    | none => search? e true (c :: before) s

/-- The pieces of a text from a point on, `fuel` bounding the number of cuts. -/
def splitFrom (e : Expression) : Nat → Bool → Place → List (Option (List Char))
  | 0, _, p => [some p.rest]
  | fuel + 1, empty, p =>
    match e.search? empty p.before p.rest with
    | none => [some p.rest]
    | some (a, b) => some (p.between a) :: (e.groupTexts b ++ splitFrom e fuel (!b.sameAs a) b)

/-- A text cut at the matches, with the texts of the groups of each match between the pieces. -/
def split (e : Expression) (s : List Char) : List (Option (List Char)) :=
  e.splitFrom (2 * s.length + 2) true (Place.front s)

end Expression
end Harvest.Regex
