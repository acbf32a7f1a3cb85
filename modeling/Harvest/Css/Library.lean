import Harvest.Markup.Element

/-
  What the program asks of a library of selectors.

  The library reads a text. Either it gives what looks for the selector below an element, or it refuses the text: as one
  that is no selector, or with a fault of another kind. Nothing else of it is known here, so whatever is said of scopes
  and schemas holds with every library. Where more is needed of one, it has a name: `Library.Consistent`,
  `Library.Descending`.
-/
namespace Harvest.Css
open Markup

/-- Why a text is refused, or why looking for what it selects fails. -/
inductive Fault where
  /-- The text is no selector. -/
  | invalid
  /-- The library gives up in another way. -/
  | raised (kind message : String)
  deriving DecidableEq, Repr

namespace Fault

/-- The text of a fault. -/
def message : Fault → String
  | invalid => "Invalid selector"
  | raised _ m => m

/-- The name of the kind of a fault. -/
def kind : Fault → String
  | invalid => "SelectorSyntaxError"
  | raised k _ => k

end Fault

/-- What a selector finds below an element. To look for it can fail too. -/
structure Finder where
  all : Element → Except Fault (List Element)
  first? : Element → Except Fault (Option Element)

/-- A library of selectors. It is inferred, so that nothing between the program and its selectors has to name it. -/
class Library where
  read : String → Except Fault Finder

namespace Library
variable [Library]

/-- To look for one element is to look for all and to take the first. -/
def Consistent : Prop := ∀ t f, read t = .ok f → ∀ e, ∃ es, f.all e = .ok es ∧ f.first? e = .ok es.head?

/-- What is found lies below the element that is searched. -/
structure Descending : Prop where
  all : ∀ t f, read t = .ok f → ∀ e es, f.all e = .ok es → es ⊆ e.descendants
  first : ∀ t f, read t = .ok f → ∀ e found, f.first? e = .ok (some found) → found ∈ e.descendants

end Library
end Harvest.Css
