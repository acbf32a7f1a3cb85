import Harvest.Markup.Token

/-
  The parts of a page that markup may leave out.

  A page is an `html` element with a `head` and a `body`. `Frame.step` says which tags to supply before a token:
    * blanks in front of the page are dropped, a comment there stays outside;
    * an element that belongs to the head opens it, if no head was there yet;
    * any other element, and text that is not blank, closes an open head and opens the body;
    * blanks that stand in the head or between the parts stay where they are.
-/
namespace Harvest.Markup
open Text

/-- What is open while a page is read, the innermost first, and which parts there have been. -/
structure Frame where
  opened : List String := []
  started : Bool := false
  headSeen : Bool := false
  bodySeen : Bool := false

/-- Elements that belong to the head. -/
def headNames : List String := ["script", "style", "meta", "link", "title", "base"]

namespace Frame

/-- The frame with one more element open. -/
def push (f : Frame) (name : String) : Frame where
  opened := name :: f.opened
  started := true
  headSeen := f.headSeen || name == "head"
  bodySeen := f.bodySeen || name == "body"

/-- An element to supply. -/
def supply (f : Frame) (name : String) : List Token × Frame := ([.opening ⟨name, []⟩ false], f.push name)

/-- Supplies the page itself. -/
def needPage (f : Frame) : List Token × Frame := if f.opened.isEmpty then f.supply "html" else ([], f)

/-- Closes an open head. -/
def closeHead (f : Frame) : List Token × Frame :=
  match f.opened with
  | "head" :: rest => ([.closing "head"], { f with opened := rest })
  | _ => ([], f)

/-- Supplies the body, with the page around it. -/
def needBody (f : Frame) : List Token × Frame :=
  let (a, f) := f.closeHead
  let (b, f) := f.needPage
  if f.bodySeen then (a ++ b, f) else
  let (c, f) := f.supply "body"
  (a ++ b ++ c, f)

/-- Supplies the head, with the page around it. -/
def needHead (f : Frame) : List Token × Frame :=
  let (a, f) := f.needPage
  if f.opened.length ≤ 1 && !f.headSeen then
    let (b, f) := f.supply "head"
    (a ++ b, f)
  else (a, f)

/-- An opening tag with what has to stand before it. -/
def stepOpening (f : Frame) (t : Tag) (closed : Bool) : List Token × Frame :=
  let (before, f) :=
    if t.name == "html" then ([], f)
    else if t.name == "head" then f.needPage
    else if t.name == "body" then
      let (a, f) := f.closeHead
      let (b, f) := f.needPage
      (a ++ b, f)
    else if headNames.contains t.name then f.needHead
    else f.needBody
  let again := (t.name == "html" && !f.opened.isEmpty) || (t.name == "head" && f.headSeen)
    || (t.name == "body" && f.bodySeen)
  if again then (before, f)
  else if closed || voidNames.contains t.name then (before ++ [.opening t closed], f)
  else (before ++ [.opening t false], f.push t.name)

/-- A text with what has to stand before it. -/
def stepText (f : Frame) (s : List Char) : List Token × Frame :=
  let outside := match f.opened with
    | [] => !f.started
    | name :: _ => name == "html" || name == "head"
  if !outside then ([.text s], f) else
  let gap := s.takeWhile isGap
  let rest := s.dropWhile isGap
  let kept := if f.opened.isEmpty then [] else textToken gap
  if rest.isEmpty then (kept, f) else
  let (supplied, f) := f.needBody
  if supplied.isEmpty then ([.text s], f) else (kept ++ supplied ++ [.text rest], f)

/-- A token with what has to stand before it. -/
def step (f : Frame) : Token → List Token × Frame
  | .text s => f.stepText s
  | .comment s => ([.comment s], f)
  | .badSection _ => ([], f)
  | .opening t closed => f.stepOpening t closed
  | .closing name =>
    match f.opened.idxOf? name with
    | none => ([], f)
    | some i => ([.closing name], { f with opened := f.opened.drop (i + 1) })

/-- A row of tokens with all parts of the page. -/
def complete (f : Frame) : List Token → List Token
  | [] => []
  | t :: ts =>
    let (us, f) := f.step t
    us ++ complete f ts

end Frame

/-- The tokens of a page, with the parts that were left out. -/
def pageTokens (ts : List Token) : List Token := ({} : Frame).complete ts

end Harvest.Markup
