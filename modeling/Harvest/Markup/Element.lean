import Harvest.Markup.Node
import Harvest.Markup.Printer

/-
  Elements in their places.

  An element is seen together with the way down to it: the elements around it, and what stands before and after it at
  each level. `place` counts elements in document order; the page as a whole is the element at place 0, with an empty
  way.
    1. `ancestors` goes up, the nearest first.
    2. `descendants` goes down, in document order.
    3. `earlier` and `later` are the siblings, the nearest first.
-/
namespace Harvest.Markup

/-- One level of the way down: the element gone through, and its children before and after the one taken. The children
before stand nearest first. -/
structure Level where
  place : Nat
  tag : Tag
  before : List Node
  after : List Node
  deriving Repr

/-- An element in its place. -/
structure Element where
  place : Nat
  tag : Tag
  children : List Node
  way : List Level
  deriving Repr

namespace Element

/-- The name that the page as a whole goes by. -/
def documentName : String := "[document]"

/-- The page as a whole. -/
def document (nodes : List Node) : Element := ⟨0, ⟨documentName, []⟩, nodes, []⟩

/-- Whether this is the page as a whole. -/
def isDocument (e : Element) : Bool := e.way.isEmpty

/-- The name of the element. -/
def name (e : Element) : String := e.tag.name

/-- Whether two elements of one page are the same. -/
def sameAs (e f : Element) : Bool := e.place == f.place

/-! ## Ways through the page -/

/-- The elements around one with these children, the nearest first. -/
def climb (tag : Tag) (children : List Node) : List Level → List Element
  | [] => []
  | l :: ls =>
    let around := l.before.reverse ++ .element tag children :: l.after
    ⟨l.place, l.tag, around, ls⟩ :: climb l.tag around ls

/-- The elements around, the nearest first, the page as a whole last. -/
def ancestors (e : Element) : List Element := climb e.tag e.children e.way

/-- The elements among nodes and within them, in document order. The nodes are children of the element that the level
`at_` goes through, and `at_.before` stands before them; `next` is the place of the first element. -/
def within (way : List Level) (place : Nat) (tag : Tag) (before : List Node) (next : Nat) : List Node → List Element
  | [] => []
  | .element t cs :: ns =>
    let down := ⟨place, tag, before, ns⟩ :: way
    ⟨next, t, cs, down⟩ ::
      (within down next t [] (next + 1) cs
        ++ within way place tag (.element t cs :: before) (next + 1 + countElements cs) ns)
  | .text s :: ns => within way place tag (.text s :: before) next ns
  | .comment s :: ns => within way place tag (.comment s :: before) next ns

/-- The elements within an element, in document order. -/
def descendants (e : Element) : List Element := within e.way e.place e.tag [] (e.place + 1) e.children

/-- The elements among nodes, not those within them. -/
def among (way : List Level) (place : Nat) (tag : Tag) (before : List Node) (next : Nat) : List Node → List Element
  | [] => []
  | .element t cs :: ns =>
    ⟨next, t, cs, ⟨place, tag, before, ns⟩ :: way⟩
      :: among way place tag (.element t cs :: before) (next + 1 + countElements cs) ns
  | n :: ns => among way place tag (n :: before) next ns

/-- The elements that are children. -/
def childElements (e : Element) : List Element := among e.way e.place e.tag [] (e.place + 1) e.children

/-- The elements among nodes taken backwards; `next` is the place after them and `after` stands behind them. -/
def amongBefore (way : List Level) (place : Nat) (tag : Tag) (after : List Node) (next : Nat) :
    List Node → List Element
  | [] => []
  | .element t cs :: ns =>
    let here := next - 1 - countElements cs
    ⟨here, t, cs, ⟨place, tag, ns, after⟩ :: way⟩
      :: amongBefore way place tag (.element t cs :: after) here ns
  | n :: ns => amongBefore way place tag (n :: after) next ns

/-- The elements before it under the same parent, the nearest first. -/
def earlier (e : Element) : List Element :=
  match e.way with
  | [] => []
  | l :: ls => amongBefore ls l.place l.tag (.element e.tag e.children :: l.after) e.place l.before

/-- The elements behind it under the same parent, the nearest first. -/
def later (e : Element) : List Element :=
  match e.way with
  | [] => []
  | l :: ls =>
    among ls l.place l.tag (.element e.tag e.children :: l.before) (e.place + 1 + countElements e.children) l.after

/-! ## What an element says -/

/-- The kind of text inside the innermost element of a way that sets its text apart. -/
def kindAlong : List Level → String
  | [] => ""
  | l :: ls => if apartNames.contains l.tag.name then l.tag.name else kindAlong ls

/-- The text of an element: of its own kind only. -/
def text (e : Element) : String := textOf (kindWithin "" e.tag) (kindWithin (kindAlong e.way) e.tag) e.children

/-- The markup inside an element. -/
def markup (e : Element) : String := markupOf (rawNames.contains e.name) e.children

/-- The value of an attribute. -/
def attribute? (e : Element) (name : String) : Option String := e.tag.attribute? name

end Element
end Harvest.Markup
