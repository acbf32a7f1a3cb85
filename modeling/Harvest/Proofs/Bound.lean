import Harvest.Proofs.Column

/-
  The bound on expansions inside each other.

  A higher bound changes nothing but where a lower one was reached: what a schema comes to with the lower bound it comes
  to with the higher one, value or fault, unless the bound itself is the fault (`Cut`).
    1. `value_cut` and its companions — it is so for every schema if it is so for the expansions that hooks ask for
       (`Cuts`). The induction is on the schema.
    2. `expanding_cut` — and it is so for the expansions, by induction on the lower bound.
-/
namespace Harvest
variable {α β : Type}

/-- The second of two computations does the same as the first, unless it reaches its bound. -/
def Cut (r s : Except Fault α) : Prop := AgreeUnless (· = .depth) Eq r s

namespace Cut

theorem refl (r : Except Fault α) : Cut r r := .inl (.refl (fun _ => rfl) r)

theorem bind {r s : Except Fault α} {f g : α → Except Fault β} (h : Cut r s) (hf : ∀ a, Cut (f a) (g a)) :
    Cut (r >>= f) (s >>= g) := by
  apply AgreeUnless.bind h
  intro a b hab
  subst hab
  exact hf a

theorem bind_same {r : Except Fault α} {f g : α → Except Fault β} (hf : ∀ a, Cut (f a) (g a)) :
    Cut (r >>= f) (r >>= g) := bind (refl r) hf

theorem mapM {f g : α → Except Fault β} {as : List α} (h : ∀ a ∈ as, Cut (f a) (g a)) :
    Cut (as.mapM f) (as.mapM g) := by
  apply (AgreeUnless.mapM h).imp (fun _ he => he)
  intro bs cs hall
  rwa [List.forall₂_eq_eq_eq] at hall

/-- What ends below the bound does not depend on it. -/
theorem eq_ok {r : Except Fault α} {a : α} (h : Cut r (.ok a)) : r = .ok a := by
  rcases h with h | ⟨e, he, -⟩
  · obtain ⟨b, hb, rfl⟩ := h.eq_ok
    exact hb
  · cases he

theorem eq_error {r : Except Fault α} {f : Fault} (h : Cut r (.error f)) (hf : f ≠ .depth) : r = .error f := by
  rcases h with h | ⟨e, he, hdepth⟩
  · cases h with
    | error => rfl
  · cases he
    exact absurd hdepth hf

end Cut

namespace Meaning
variable {x : Engine} {expand expand' : Expansion}

/-- The same of all that may be put in place of a mapping. -/
def Cuts (expand expand' : Expansion) : Prop := ∀ v scope, Cut (expand v scope) (expand' v scope)

/-! ## Mappings -/

section
variable [Css.Library] {fill fill' : Scope → Except Fault Value.Record}

theorem filled_cut (hfill : ∀ s, Cut (fill s) (fill' s)) (root : Option String) (scope : Scope) :
    Cut (filled root fill scope) (filled root fill' scope) := by
  rw [filled, filled]
  apply Cut.bind_same
  intro s
  exact (hfill s).bind fun r => .refl _

theorem one_cut (hexpand : Cuts expand expand') (hfill : ∀ s, Cut (fill s) (fill' s))
    (source : Entries) (root : Option String) (scope : Scope) :
    Cut (one x expand source root fill scope) (one x expand' source root fill' scope) := by
  rw [one, one]
  apply Cut.bind_same
  intro outcome
  cases outcome with
  | content v => exact .refl _
  | replaced v => exact hexpand v scope
  | unchanged => exact filled_cut hfill root scope

theorem records_cut (hexpand : Cuts expand expand') (hfill : ∀ s, Cut (fill s) (fill' s))
    (source : Entries) (root : String) (scope : Scope) :
    Cut (records x expand source root fill scope) (records x expand' source root fill' scope) := by
  rw [records, records]
  apply Cut.bind_same
  intro s
  apply Cut.mapM
  intro e _
  exact one_cut hexpand hfill _ none (.of e)

end

/-! ## Schemas -/

variable [Css.Library]

mutual

/-- A schema reaches a bound only where an expansion does. -/
theorem value_cut (hexpand : Cuts expand expand') : ∀ (s : Compiled) (scope : Scope),
    Cut (value x expand scope s) (value x expand' scope s)
  | .text e, scope => by
    rw [value, value]
    exact .refl _
  | .mapping (.mk root fs source), scope => by
    rw [value, value]
    exact one_cut hexpand (fields_cut hexpand fs) source root scope
  | .list is, scope => by
    rw [value, value]
    exact (items_cut hexpand is scope).bind fun vs => .refl _

theorem fields_cut (hexpand : Cuts expand expand') : ∀ (fs : List (String × Compiled)) (scope : Scope),
    Cut (fields x expand scope fs) (fields x expand' scope fs)
  | [], scope => by
    rw [fields, fields]
    exact .refl _
  | (k, s) :: fs, scope => by
    rw [fields, fields]
    exact (value_cut hexpand s scope).bind fun v => (fields_cut hexpand fs scope).bind fun r => .refl _

theorem items_cut (hexpand : Cuts expand expand') : ∀ (is : List (Item Entries)) (scope : Scope),
    Cut (items x expand scope is) (items x expand' scope is)
  | [], scope => by
    rw [items, items]
    exact .refl _
  | .text e :: is, scope => by
    rw [items, items]
    exact Cut.bind_same fun vs => (items_cut hexpand is scope).bind fun ws => .refl _
  | .mapping (.mk (some r) fs source) :: is, scope => by
    rw [items, items]
    exact (records_cut hexpand (fields_cut hexpand fs) source r scope).bind fun vs =>
      (items_cut hexpand is scope).bind fun ws => .refl _
  | .mapping (.mk none fs source) :: is, scope => by
    rw [items, items]
    exact (columns_cut hexpand fs scope).bind fun cs => (items_cut hexpand is scope).bind fun ws => .refl _

theorem columns_cut (hexpand : Cuts expand expand') : ∀ (fs : List (String × Compiled)) (scope : Scope),
    Cut (columns x expand scope fs) (columns x expand' scope fs)
  | [], scope => by
    rw [columns, columns]
    exact .refl _
  | (k, .text e) :: fs, scope => by
    rw [columns, columns]
    exact Cut.bind_same fun vs => (columns_cut hexpand fs scope).bind fun cs => .refl _
  | (k, .mapping (.mk (some r) gs source)) :: fs, scope => by
    rw [columns, columns]
    exact (records_cut hexpand (fields_cut hexpand gs) source r scope).bind fun vs =>
      (columns_cut hexpand fs scope).bind fun cs => .refl _
  | (k, .mapping (.mk none gs source)) :: fs, scope => by
    rw [columns, columns]
    exact (columns_cut hexpand gs scope).bind fun ds => (columns_cut hexpand fs scope).bind fun cs => .refl _
  | (k, .list is) :: fs, scope => by
    rw [columns, columns]
    exact (columns_cut hexpand fs scope).bind fun cs => .refl _

end

/-! ## Bounds -/

/-- What an expansion comes to with a bound it comes to with every higher one, unless it reaches the lower. -/
theorem expanding_cut (x : Engine) {m n : Nat} (h : m ≤ n) : Cuts (expanding x n) (expanding x m) := by
  induction m generalizing n with
  | zero =>
    intro v scope
    exact .inr ⟨.depth, rfl, rfl⟩
  | succ m ih =>
    obtain ⟨n, rfl⟩ : ∃ k, n = k + 1 := ⟨n - 1, by omega⟩
    have hexpand : Cuts (expanding x n) (expanding x m) := ih (by omega)
    intro v scope
    rw [expanding, expanding]
    apply Cut.bind_same
    intro s
    cases s with
    | mapping m =>
      obtain ⟨root, fs, source⟩ := m
      exact filled_cut (fields_cut hexpand fs) root scope
    | text e => exact value_cut hexpand (.text e) scope
    | list is => exact value_cut hexpand (.list is) scope

/-- What a value that writes down a schema means in a scope, with a bound of its own. -/
def resolveWithin (x : Engine) (n : Nat) (schema : Value) (scope : Scope) : Except Fault Value := do
  let s ← compile schema
  value x (expanding x n) scope s

theorem resolveWithin_cut (x : Engine) {m n : Nat} (h : m ≤ n) (v : Value) (scope : Scope) :
    Cut (resolveWithin x n v scope) (resolveWithin x m v scope) :=
  Cut.bind_same fun s => value_cut (expanding_cut x h) s scope

theorem resolve_eq_within {v : Value} {s : Compiled} (hv : Schema.compile v = .ok s) (scope : Scope) :
    resolve x v scope = resolveWithin x (s.depth + Engine.deepest) v scope := by
  have hcompile : compile v = .ok s := by rw [compile, hv]
  rw [resolve, resolveWithin, hcompile, ok_bind, ok_bind]

end Meaning
end Harvest
