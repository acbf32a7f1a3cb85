import Harvest.Css.Library
import Harvest.Event

/-
  Scopes: the elements of a page in which a query looks.

  A scope is a row of elements, each of them once. The empty one is a scope like any other: every search in it finds
  nothing, and its selector is not even read.
    1. `Scope.ofList` keeps the first of every element (`distinct`).
    2. `findAll` lists the matches within every element of the scope, one element after the other.
    3. `findFirst?` is the first match within the first element that has one.
  A text that is no selector matches nothing and is reported.
-/
namespace Harvest
open Markup

/-- Every element at its first occurrence only. -/
def keepFirst : List Element → List Element
  | [] => []
  | e :: es => e :: (keepFirst es).filter (!e.sameAs ·)

theorem keepFirst_distinct (es : List Element) : (keepFirst es).Pairwise fun e f => e.sameAs f = false := by
  induction es with
  | nil => exact .nil
  | cons e es ih =>
    refine .cons (fun f hf => ?_) (ih.filter _)
    simpa using (List.mem_filter.mp hf).2

/-- Elements of a page, each of them once. -/
structure Scope where
  elements : List Element
  distinct : elements.Pairwise fun e f => e.sameAs f = false

namespace Scope

/-- The scope without elements. -/
def empty : Scope := ⟨[], .nil⟩

/-- The scope of some elements. -/
def ofList (es : List Element) : Scope := ⟨keepFirst es, keepFirst_distinct es⟩

/-- The scope of one element. -/
def of (e : Element) : Scope := ⟨[e], List.pairwise_singleton _ e⟩

/-- The scope of an element that may be missing. -/
def ofOption : Option Element → Scope
  | none => empty
  | some e => of e

/-- The element at a position; negative positions count from the end. -/
def get? (s : Scope) (i : Int) : Option Element :=
  let n := s.elements.length
  if 0 ≤ i then s.elements[i.toNat]? else if -i ≤ n then s.elements[(n + i).toNat]? else none

/-- The names of the first five elements. -/
def shown (s : Scope) : String :=
  let names := (s.elements.take 5).map (·.name)
  let more := if 5 < s.elements.length then "..." else ""
  "Scope([" ++ ", ".intercalate names ++ more ++ "])"

/-- What a search in a scope comes to: a result and what is reported about it. -/
abbrev Search (α : Type) := Except Css.Fault (α × List Event)

variable [Css.Library]

/-- Searches with a selector; nothing is found if the text is none, or if there is nowhere to look. -/
def search {α : Type} (s : Scope) (selector : String) (nothing : α) (find : Css.Finder → Except Css.Fault α) :
    Search α :=
  if s.elements.isEmpty then .ok (nothing, []) else
  match Css.Library.read selector >>= find with
  | .ok a => .ok (a, [])
  | .error .invalid => .ok (nothing, [.selectorInvalid selector])
  | .error f => .error f

/-- The elements that a selector matches within the elements of a scope. -/
def findAll (s : Scope) (selector : String) : Search Scope :=
  s.search selector empty fun f => do return ofList (← s.elements.mapM f.all).flatten

/-- The first element that a selector matches within the elements of a scope. -/
def findFirst? (s : Scope) (selector : String) : Search (Option Element) :=
  s.search selector none fun f => s.elements.findSomeM? f.first?

end Scope
end Harvest
