/-
  Compiled schemas.

  A schema says what to read from a page:
    * `text e`     — one value, by the expression `e`;
    * `mapping m`  — a record, one field after the other, perhaps below a root element;
    * `list items` — a list; the results of several items stand one after the other.
  Lists do not nest: an item is an expression or a mapping. Every mapping keeps the `source` it was made from, of a type
  left open here.
-/
namespace Harvest

mutual

/-- A compiled schema. -/
inductive Schema (σ : Type) where
  | text (expression : String)
  | mapping (m : Mapping σ)
  | list (items : List (Item σ))

/-- An item of a list schema. -/
inductive Item (σ : Type) where
  | text (expression : String)
  | mapping (m : Mapping σ)

/-- Named fields, perhaps below a root element. -/
inductive Mapping (σ : Type) where
  | mk (root : Option String) (fields : List (String × Schema σ)) (source : σ)

end

namespace Mapping
variable {σ : Type}

/-- The selector of the root element. -/
def root : Mapping σ → Option String
  | mk r _ _ => r

/-- The fields, in the order of declaration. -/
def fields : Mapping σ → List (String × Schema σ)
  | mk _ fs _ => fs

/-- What the mapping was made from. -/
def source : Mapping σ → σ
  | mk _ _ s => s

end Mapping

/-- An item as a schema of its own. -/
def Item.toSchema {σ : Type} : Item σ → Schema σ
  | .text e => .text e
  | .mapping m => .mapping m

/-- A schema as an item of a list, if it is no list itself. -/
def Schema.toItem? {σ : Type} : Schema σ → Option (Item σ)
  | .text e => some (.text e)
  | .mapping m => some (.mapping m)
  | .list _ => none

/-! ## Depth -/

mutual

/-- How many mappings stand inside each other. -/
def Schema.depth {σ : Type} : Schema σ → Nat
  | .text _ => 0
  | .mapping (.mk _ fs _) => depthOfFields fs + 1
  | .list is => depthOfItems is

/-- The depth of the deepest field. -/
def depthOfFields {σ : Type} : List (String × Schema σ) → Nat
  | [] => 0
  | (_, s) :: fs => max s.depth (depthOfFields fs)

/-- The depth of the deepest item. -/
def depthOfItems {σ : Type} : List (Item σ) → Nat
  | [] => 0
  | .text _ :: is => depthOfItems is
  | .mapping (.mk _ fs _) :: is => max (depthOfFields fs + 1) (depthOfItems is)

end

/-! ## Equality without regard to sources -/

mutual

/-- Whether two schemas differ at most in their sources. -/
def Schema.same {σ τ : Type} : Schema σ → Schema τ → Bool
  | .text e, .text f => e == f
  | .mapping m, .mapping n => m.same n
  | .list xs, .list ys => sameItems xs ys
  | _, _ => false

/-- Whether two items differ at most in their sources. -/
def Item.same {σ τ : Type} : Item σ → Item τ → Bool
  | .text e, .text f => e == f
  | .mapping m, .mapping n => m.same n
  | _, _ => false

/-- Whether two mappings differ at most in their sources. -/
def Mapping.same {σ τ : Type} : Mapping σ → Mapping τ → Bool
  | .mk r fs _, .mk t gs _ => r == t && sameFields fs gs

/-- Item by item. -/
def sameItems {σ τ : Type} : List (Item σ) → List (Item τ) → Bool
  | [], [] => true
  | x :: xs, y :: ys => x.same y && sameItems xs ys
  | _, _ => false

/-- Field by field. -/
def sameFields {σ τ : Type} : List (String × Schema σ) → List (String × Schema τ) → Bool
  | [], [] => true
  | (k, s) :: fs, (l, t) :: gs => k == l && s.same t && sameFields fs gs
  | _, _ => false

end
end Harvest
