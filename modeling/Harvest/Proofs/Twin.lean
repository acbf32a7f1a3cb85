import Harvest.Proofs.Meaning
import Mathlib.Data.Option.Defs

/-
  Schemas worked through side by side.

  Two schemas that are built alike give the same when their parts do. `Schema.Twin` compares them part by part, up to
  changes that make no difference (`Changes`): an expression or a root is written in another way, or what one of them
  leaves to a hook stands in the other. Where a mapping is met decides whether a hook has a say in it (`Position`).
    1. `value_twin` and its companions — twins give the same, if the changes make no difference to the two engines.
    2. `Schema.Twin.of_same` — schemas that differ in their sources alone are twins, where the hook has nothing to say
       about the mappings of the first.
    3. `value_same` — so such a schema gives what the other gives without a hook. In particular it gives the same
       without a hook itself (`value_unhooked`), and needs no expansion.
-/
namespace Harvest

/-- Where a schema is met: where one value is wanted, or where many are, one below the other. -/
inductive Position where
  | one
  | many
  deriving DecidableEq

/-- Where the fields of a mapping are met. Only a mapping that makes no records of its own passes on that many values
are wanted. -/
def Position.below : Position → Option String → Position
  | .many, none => .many
  | _, _ => .one

/-- Changes to a schema. -/
structure Changes where
  /-- One expression in place of another. -/
  expression : String → String → Prop := Eq
  /-- One root in place of another. -/
  root : String → String → Prop := Eq
  /-- Mappings that stay what they are. -/
  kept : Entries → Prop
  /-- One schema in place of another, where one value is wanted. -/
  instead : Compiled → Compiled → Prop := fun _ _ => False

section
variable (c : Changes)

mutual

/-- Whether the second of two schemas is the first one after changes. -/
inductive Schema.Twin : Position → Compiled → Compiled → Prop where
  | text {p : Position} {e e' : String} (h : c.expression e e') : Schema.Twin p (.text e) (.text e')
  | instead {s t : Compiled} (h : c.instead s t) : Schema.Twin .one s t
  | mapping {p : Position} {root root' : Option String} {fs fs' : List (String × Compiled)} {source source' : Entries}
      (hkept : c.kept source) (hroot : Option.Rel c.root root root') (hfs : FieldTwins (p.below root) fs fs') :
      Schema.Twin p (.mapping (.mk root fs source)) (.mapping (.mk root' fs' source'))
  | list {p : Position} {is is' : List (Item Entries)} (h : ItemTwins is is') :
      Schema.Twin p (.list is) (.list is')

/-- The same of fields, which keep their names. -/
inductive FieldTwins : Position → List (String × Compiled) → List (String × Compiled) → Prop where
  | nil {p : Position} : FieldTwins p [] []
  | cons {p : Position} {k : String} {s t : Compiled} {fs gs : List (String × Compiled)} (h : Schema.Twin p s t)
      (hfs : FieldTwins p fs gs) : FieldTwins p ((k, s) :: fs) ((k, t) :: gs)

/-- The same of items. -/
inductive ItemTwins : List (Item Entries) → List (Item Entries) → Prop where
  | nil : ItemTwins [] []
  | cons {i j : Item Entries} {is js : List (Item Entries)} (h : Schema.Twin .many i.toSchema j.toSchema)
      (his : ItemTwins is js) : ItemTwins (i :: is) (j :: js)

end
end

namespace Meaning

/-- A hook that leaves a mapping as it is, with its root and without. -/
def Leaves (x : Engine) (source : Entries) : Prop :=
  ∀ scope, decision (x.mappingHook.map fun h => h scope source) = .ok .unchanged ∧
    decision (x.mappingHook.map fun h => h scope (Value.without Schema.rootKey source)) = .ok .unchanged

theorem leaves_of_none {x : Engine} (hx : x.mappingHook = none) (source : Entries) : Leaves x source := by
  intro scope
  rw [hx]
  exact ⟨rfl, rfl⟩

variable [Css.Library]

/-- Changes that make no difference between an engine and one without a hook on mappings. -/
structure Indifferent (c : Changes) (x : Engine) (expand : Expansion) (y : Engine) (expand' : Expansion) : Prop where
  single : ∀ {e e'}, c.expression e e' → ∀ scope, single x e scope = single y e' scope
  plural : ∀ {e e'}, c.expression e e' → ∀ scope, plural x e scope = plural y e' scope
  first : ∀ {r r'}, c.root r r' → ∀ scope : Scope, found (scope.findFirst? r) = found (scope.findFirst? r')
  all : ∀ {r r'}, c.root r r' → ∀ scope : Scope, found (scope.findAll r) = found (scope.findAll r')
  kept : ∀ {source}, c.kept source → Leaves x source
  instead : ∀ {s t}, c.instead s t → ∀ scope, value x expand scope s = value y expand' scope t
  unhooked : y.mappingHook = none

section
variable {c : Changes} {x y : Engine} {expand expand' : Expansion} {fill : Scope → Except Fault Value.Record}

/-- A mapping that a hook leaves as it is stands for one record below its root. -/
theorem one_left {source : Entries} {scope : Scope}
    (h : decision (x.mappingHook.map fun h => h scope source) = .ok .unchanged) (root : Option String) :
    one x expand source root fill scope = filled root fill scope := by
  rw [one, h]
  rfl

namespace Indifferent
variable (h : Indifferent c x expand y expand')
include h

theorem narrow {root root' : Option String} (hroot : Option.Rel c.root root root') (scope : Scope) :
    Meaning.narrow root scope = Meaning.narrow root' scope := by
  cases hroot with
  | none => rfl
  | some hr => rw [Meaning.narrow, Meaning.narrow, h.first hr]

theorem one {source : Entries} (hkept : c.kept source) {root root' : Option String}
    (hroot : Option.Rel c.root root root') (scope : Scope) :
    one x expand source root fill scope = filled root' fill scope := by
  rw [one_left (h.kept hkept scope).1, filled, filled, h.narrow hroot]

theorem records {source : Entries} (hkept : c.kept source) {r r' : String} (hr : c.root r r') (scope : Scope) :
    records x expand source r fill scope
      = found (scope.findAll r') >>= fun s => s.elements.mapM fun e => filled none fill (.of e) := by
  rw [Meaning.records, h.all hr]
  simp only [one_left (h.kept hkept _).2]

end Indifferent

mutual

/-- Twins give the same. -/
theorem value_twin (h : Indifferent c x expand y expand') : ∀ {s t : Compiled}, s.Twin c .one t →
    ∀ scope, value x expand scope s = value y expand' scope t
  | _, _, .text he, scope => by rw [value, value, h.single he]
  | _, _, .instead hs, scope => h.instead hs scope
  | _, _, .mapping hkept hroot hfs, scope => by
    have hfill : ∀ s, fields x expand s _ = fields y expand' s _ := fun s => fields_twin h hfs s
    rw [value, value, h.one hkept hroot, one_eq h.unhooked]
    simp only [hfill]
  | _, _, .list his, scope => by rw [value, value, items_twin h his]

theorem fields_twin (h : Indifferent c x expand y expand') : ∀ {fs gs : List (String × Compiled)},
    FieldTwins c .one fs gs → ∀ scope, fields x expand scope fs = fields y expand' scope gs
  | _, _, .nil, _ => by rw [fields, fields]
  | _, _, .cons hs hfs, scope => by rw [fields, fields, value_twin h hs, fields_twin h hfs]

theorem items_twin (h : Indifferent c x expand y expand') : ∀ {is js : List (Item Entries)},
    ItemTwins c is js → ∀ scope, items x expand scope is = items y expand' scope js
  | _, _, .nil, _ => by rw [items, items]
  | .text _ :: _, .text _ :: _, .cons (.text he) his, scope => by
    rw [items, items, h.plural he, items_twin h his]
  -- below a root the fields are met one by one again, without a root as columns
  | .mapping (.mk (some _) _ _) :: _, .mapping (.mk (some _) _ _) :: _, .cons (.mapping hkept (.some hr) hfs) his,
    scope => by
    have hfill : ∀ s, fields x expand s _ = fields y expand' s _ := fun s => fields_twin h hfs s
    rw [items, items, h.records hkept hr, records_eq h.unhooked, items_twin h his]
    simp only [hfill]
  | .mapping (.mk none _ _) :: _, .mapping (.mk none _ _) :: _, .cons (.mapping _ .none hfs) his, scope => by
    rw [items, items, columns_twin h hfs, items_twin h his]

theorem columns_twin (h : Indifferent c x expand y expand') : ∀ {fs gs : List (String × Compiled)},
    FieldTwins c .many fs gs → ∀ scope, columns x expand scope fs = columns y expand' scope gs
  | _, _, .nil, _ => by rw [columns, columns]
  | _, _, .cons (.text he) hfs, scope => by rw [columns, columns, h.plural he, columns_twin h hfs]
  | _, _, .cons (.mapping hkept (.some hr) hgs) hfs, scope => by
    have hfill : ∀ s, fields x expand s _ = fields y expand' s _ := fun s => fields_twin h hgs s
    rw [columns, columns, h.records hkept hr, records_eq h.unhooked, columns_twin h hfs]
    simp only [hfill]
  | _, _, .cons (.mapping _ .none hgs) hfs, scope => by
    rw [columns, columns, columns_twin h hgs, columns_twin h hfs]
  -- a list makes an empty column, so its items need no comparison
  | _, _, .cons (.list _) hfs, scope => by rw [columns, columns, columns_twin h hfs]

end
end
end Meaning

/-! ## Schemas that differ in their sources alone -/

mutual

theorem Schema.same_refl {σ : Type} : ∀ s : Schema σ, s.same s = true
  | .text _ => by simp [Schema.same]
  | .mapping m => by rw [Schema.same, Mapping.same_refl m]
  | .list is => by rw [Schema.same, sameItems_refl is]

theorem Mapping.same_refl {σ : Type} : ∀ m : Mapping σ, m.same m = true
  | .mk _ fs _ => by simp [Mapping.same, sameFields_refl fs]

theorem sameItems_refl {σ : Type} : ∀ is : List (Item σ), sameItems is is = true
  | [] => by rw [sameItems]
  | .text _ :: is => by simp [sameItems, Item.same, sameItems_refl is]
  | .mapping m :: is => by simp [sameItems, Item.same, Mapping.same_refl m, sameItems_refl is]

theorem sameFields_refl {σ : Type} : ∀ fs : List (String × Schema σ), sameFields fs fs = true
  | [] => by rw [sameFields]
  | (_, s) :: fs => by simp [sameFields, Schema.same_refl s, sameFields_refl fs]

end

mutual

/-- What the mappings of a schema were made from. -/
def Schema.sources {σ : Type} : Schema σ → List σ
  | .text _ => []
  | .mapping (.mk _ fs source) => source :: sourcesOfFields fs
  | .list is => sourcesOfItems is

/-- The same of the mappings within fields. -/
def sourcesOfFields {σ : Type} : List (String × Schema σ) → List σ
  | [] => []
  | (_, s) :: fs => s.sources ++ sourcesOfFields fs

/-- The same of the mappings among items and within. -/
def sourcesOfItems {σ : Type} : List (Item σ) → List σ
  | [] => []
  | .text _ :: is => sourcesOfItems is
  | .mapping (.mk _ fs source) :: is => source :: sourcesOfFields fs ++ sourcesOfItems is

end

/-- Nothing is changed but what happens to mappings. -/
def Changes.none (kept : Entries → Prop) : Changes := { kept }

section
variable {kept : Entries → Prop}

theorem Option.rel_self (root : Option String) : Option.Rel Eq root root := by
  cases root with
  | none => exact .none
  | some r => exact .some rfl

mutual

/-- Schemas that differ in their sources alone are twins when all mappings of the first are kept. -/
theorem Schema.Twin.of_same : ∀ {s t : Compiled}, s.same t = true → (∀ es ∈ s.sources, kept es) →
    ∀ p, s.Twin (.none kept) p t
  | .text e, .text f, hst, _, _ => by
    obtain rfl : e = f := by simpa [Schema.same] using hst
    exact .text rfl
  | .mapping (.mk r fs _), .mapping (.mk r' gs _), hst, h, p => by
    obtain ⟨rfl, hfs⟩ : r = r' ∧ sameFields fs gs = true := by simpa [Schema.same, Mapping.same] using hst
    exact .mapping (h _ (by simp [Schema.sources])) (Option.rel_self r)
      (FieldTwins.of_same hfs (fun es hes => h es (by simp [Schema.sources, hes])) (p.below r))
  | .list is, .list js, hst, h, _ => by
    rw [Schema.same] at hst
    exact .list (ItemTwins.of_same hst h)

theorem FieldTwins.of_same : ∀ {fs gs : List (String × Compiled)}, sameFields fs gs = true →
    (∀ es ∈ sourcesOfFields fs, kept es) → ∀ p, FieldTwins (.none kept) p fs gs
  | [], [], _, _, _ => .nil
  | (k, s) :: fs, (l, t) :: gs, hfg, h, p => by
    obtain ⟨⟨rfl, hst⟩, hfs⟩ : (k = l ∧ s.same t = true) ∧ sameFields fs gs = true := by simpa [sameFields] using hfg
    exact .cons (Schema.Twin.of_same hst (fun es hes => h es (by simp [sourcesOfFields, hes])) p)
      (FieldTwins.of_same hfs (fun es hes => h es (by simp [sourcesOfFields, hes])) p)

theorem ItemTwins.of_same : ∀ {is js : List (Item Entries)}, sameItems is js = true →
    (∀ es ∈ sourcesOfItems is, kept es) → ItemTwins (.none kept) is js
  | [], [], _, _ => .nil
  | .text e :: is, .text f :: js, hij, h => by
    obtain ⟨rfl, his⟩ : e = f ∧ sameItems is js = true := by simpa [sameItems, Item.same] using hij
    exact .cons (.text rfl) (ItemTwins.of_same his h)
  | .mapping (.mk r fs _) :: is, .mapping (.mk r' gs _) :: js, hij, h => by
    obtain ⟨⟨rfl, hfs⟩, his⟩ : (r = r' ∧ sameFields fs gs = true) ∧ sameItems is js = true := by
      simpa [sameItems, Item.same, Mapping.same] using hij
    exact .cons (.mapping (h _ (by simp [sourcesOfItems])) (Option.rel_self r)
        (FieldTwins.of_same hfs (fun es hes => h es (by simp [sourcesOfItems, hes])) _))
      (ItemTwins.of_same his fun es hes => h es (by simp [sourcesOfItems, hes]))

end
end

/-- The engine without its hook on mappings. -/
def Engine.unhooked (x : Engine) : Engine := { x with mappingHook := none }

namespace Meaning
variable [Css.Library] {x : Engine} {s t : Compiled}

/-- Where a hook has nothing to say about the mappings of a schema, the schema gives what one that differs from it in
its sources alone gives without the hook. -/
theorem value_same (h : ∀ es ∈ s.sources, Leaves x es) (hst : s.same t = true) (expand expand' : Expansion)
    (scope : Scope) : value x expand scope s = value x.unhooked expand' scope t := by
  have hnone : Indifferent (.none (Leaves x)) x expand x.unhooked expand' :=
    { single := fun he scope => by rw [Eq.symm he]; rfl
      plural := fun he scope => by rw [Eq.symm he]; rfl
      first := fun hr scope => by rw [Eq.symm hr]
      all := fun hr scope => by rw [Eq.symm hr]
      kept := id
      instead := fun hs => hs.elim
      unhooked := rfl }
  exact value_twin hnone (.of_same hst h .one) scope

/-- Where a hook has nothing to say about the mappings of a schema, the schema gives what it gives without the hook. -/
theorem value_unhooked (h : ∀ es ∈ s.sources, Leaves x es) (expand expand' : Expansion) (scope : Scope) :
    value x expand scope s = value x.unhooked expand' scope s := value_same h s.same_refl expand expand' scope

/-- Without a hook nothing is expanded, and the sources play no part. -/
theorem value_same_expand (hx : x.mappingHook = none) (hst : s.same t = true) (expand expand' : Expansion)
    (scope : Scope) : value x expand scope s = value x expand' scope t := by
  rw [value_same (fun es _ => leaves_of_none hx es) hst expand expand',
    value_unhooked (fun es _ => leaves_of_none hx es) expand' expand']

theorem value_expand (hx : x.mappingHook = none) (expand expand' : Expansion) (scope : Scope) :
    value x expand scope s = value x expand' scope s := value_same_expand hx s.same_refl expand expand' scope

end Meaning
end Harvest
