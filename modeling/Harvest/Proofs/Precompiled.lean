import Harvest.Proofs.Entries
import Harvest.Proofs.Shape
import Harvest.Proofs.Twin

/-
  Schemas of which parts were compiled before.

  A compiled schema inside a value stands for itself, so the rest of the value is compiled around it. It makes no
  difference which parts of a value are handed over compiled (`Value.Precompiled`).
    1. `Precompiled.compile` — such a value fails as the first one does, or compiles to a schema that differs from that
       of the first in nothing but its sources. The induction is on how the values belong together: a mapping is
       compiled to fields that are the same, a list to items that are.
    2. `result_precompiled` — so without a hook on mappings, which would be shown the sources, every call gives the
       same.
-/
namespace Harvest

mutual

/-- The second of two values is the first one with schemas in it compiled: fields, items, or the whole. -/
inductive Value.Precompiled : Value → Value → Prop where
  | self (v : Value) : Value.Precompiled v v
  | whole {v w : Value} {s : Compiled} (h : Value.Precompiled v w) (hs : Schema.compile w = .ok s) :
      Value.Precompiled v (.schema s)
  | list {vs ws : List Value} (h : MembersPrecompiled vs ws) : Value.Precompiled (.list vs) (.list ws)
  | tuple {vs ws : List Value} (h : MembersPrecompiled vs ws) : Value.Precompiled (.tuple vs) (.tuple ws)
  | map {es ds : Entries} (h : EntriesPrecompiled es ds) : Value.Precompiled (.map es) (.map ds)

/-- The same of the members of a list. -/
inductive MembersPrecompiled : List Value → List Value → Prop where
  | nil : MembersPrecompiled [] []
  | cons {v w : Value} {vs ws : List Value} (hv : Value.Precompiled v w) (hvs : MembersPrecompiled vs ws) :
      MembersPrecompiled (v :: vs) (w :: ws)

/-- The same of the entries of a mapping, whose keys stay. The root is no schema and stays, too. -/
inductive EntriesPrecompiled : Entries → Entries → Prop where
  | nil : EntriesPrecompiled [] []
  | root {v : Value} {es ds : Entries} (hes : EntriesPrecompiled es ds) :
      EntriesPrecompiled ((Schema.rootKey, v) :: es) ((Schema.rootKey, v) :: ds)
  | field {l v w : Value} {es ds : Entries} (hl : l ≠ Schema.rootKey) (hv : Value.Precompiled v w)
      (hes : EntriesPrecompiled es ds) : EntriesPrecompiled ((l, v) :: es) ((l, w) :: ds)

end

/-! ## Compiling around what is compiled -/

/-- Schemas that are the same make the same item, or are lists both. -/
theorem Schema.asItem_same : ∀ {s t : Compiled}, s.same t = true →
    Agree (fun i j => i.same j = true) (asItem s) (asItem t)
  | .text _, .text _, h => .ok (by simpa [Schema.same, Item.same] using h)
  | .mapping _, .mapping _, h => .ok (by simpa [Schema.same, Item.same] using h)
  | .list _, .list _, _ => .error _

theorem EntriesPrecompiled.find?_root {es ds : Entries} (h : EntriesPrecompiled es ds) :
    Value.find? Schema.rootKey es = Value.find? Schema.rootKey ds := by
  induction es generalizing ds with
  | nil =>
    cases h
    rfl
  | cons e es ih =>
    cases h with
    | root hes => rw [Schema.rootKey, Value.find?_cons_self, Value.find?_cons_self]
    | field hl _ hes =>
      rw [Schema.rootKey, Value.find?_cons_of_ne hl, Value.find?_cons_of_ne hl]
      exact ih hes

theorem EntriesPrecompiled.rootOf {es ds : Entries} (h : EntriesPrecompiled es ds) :
    Schema.rootOf es = Schema.rootOf ds := by rw [Schema.rootOf, Schema.rootOf, h.find?_root]

mutual

/-- A value and the same with parts compiled fail alike, or compile to schemas that differ in their sources alone. -/
theorem Value.Precompiled.compile : ∀ {v w : Value}, v.Precompiled w →
    Agree (fun s t => s.same t = true) (Schema.compile v) (Schema.compile w)
  | _, _, .self v => .refl Schema.same_refl _
  | _, _, .whole h hs => by
    have hv := h.compile
    rw [hs] at hv
    rw [Schema.compile]
    exact hv
  | _, _, .list h => by
    rw [Schema.compile, Schema.compile]
    exact h.compile.bind fun is js his => .ok his
  | _, _, .tuple h => by
    rw [Schema.compile, Schema.compile]
    exact h.compile.bind fun is js his => .ok his
  | _, _, .map h => by
    rw [Schema.compile, Schema.compile, h.rootOf]
    refine .bind_same fun root _ => ?_
    exact h.compile.bind fun fs gs hfs => .ok (by simp [Schema.same, Mapping.same, hfs])

theorem MembersPrecompiled.compile : ∀ {vs ws : List Value}, MembersPrecompiled vs ws →
    Agree (fun is js => sameItems is js = true) (Schema.compileItems vs) (Schema.compileItems ws)
  | _, _, .nil => .refl sameItems_refl _
  | _, _, .cons hv hvs => by
    rw [Schema.compileItems, Schema.compileItems]
    refine hv.compile.bind fun s t hst => ?_
    refine (Schema.asItem_same hst).bind fun i j hij => ?_
    exact hvs.compile.bind fun is js his => .ok (by simp [sameItems, hij, his])

theorem EntriesPrecompiled.compile : ∀ {es ds : Entries}, EntriesPrecompiled es ds →
    Agree (fun fs gs => sameFields fs gs = true) (Schema.compileFields es) (Schema.compileFields ds)
  | _, _, .nil => .refl sameFields_refl _
  | _, _, .root hes => by
    rw [Schema.compileFields_root, Schema.compileFields_root]
    exact hes.compile
  | (l, _) :: _, _, .field hl hv hes => by
    by_cases htext : ∃ k, l = .text k
    · obtain ⟨k, rfl⟩ := htext
      have hk : k ≠ "$root" := by simpa [Schema.rootKey] using hl
      rw [Schema.compileFields_cons hk, Schema.compileFields_cons hk]
      refine hv.compile.bind fun s t hst => ?_
      exact hes.compile.bind fun fs gs hfs => .ok (by simp [sameFields, hst, hfs])
    · -- the name is at fault in both, before the value is looked at
      rw [Schema.compileFields_other (not_exists.mp htext), Schema.compileFields_other (not_exists.mp htext)]
      exact .error _

end

/-! ## Calls -/

/-- Without a hook on mappings it makes no difference which parts of a value are compiled. -/
theorem Meaning.resolve_precompiled [Css.Library] {x : Engine} (hx : x.mappingHook = none) {v w : Value} (h : v.Precompiled w)
    (scope : Scope) : resolve x w scope = resolve x v scope := by
  have hagree := h.compile
  cases hv : Schema.compile v with
  | error f =>
    rw [hv] at hagree
    rw [resolve_error hv, resolve_error hagree.eq_error]
  | ok s =>
    rw [hv] at hagree
    obtain ⟨t, hw, hst⟩ := hagree.exists_ok
    rw [resolve_ok hv, resolve_ok hw, value_same_expand hx hst]

/-- Handing over parts of a schema compiled makes no difference: it compiles to a schema that differs in nothing but its
sources, and gives the same in every call without a hook on mappings. What is no schema does not become one. -/
theorem Extractor.result_precompiled [Css.Library] {v w : Value} (h : v.Precompiled w) :
    (∀ s, Schema.compile v = .ok s → ∃ t, Schema.compile w = .ok t ∧ s.same t = true) ∧
      (∀ f, Schema.compile v = .error f → Schema.compile w = .error f) ∧
      ∀ (page : Markup.Element) (o : Options), o.mappingHook = none → ∀ (history history' : List Call)
        (scope : Option Scope),
        ((fresh page o).after history').result w scope = ((fresh page o).after history).result v scope := by
  refine ⟨fun s hs => ?_, fun f hf => ?_, fun page o ho history history' scope => ?_⟩
  · exact Agree.exists_ok (hs ▸ h.compile)
  · exact Agree.eq_error (hf ▸ h.compile)
  · have hx : o.engine.mappingHook = none := by rw [Options.engine, ho, Option.map_none]
    rw [result_after, result_after, Meaning.resolve_precompiled hx h]

namespace Sample

/-- The schema of the sample, with the titles of all items compiled. -/
def mixed : Value := .map [(.text "title", .text "b"),
  (.text "items", .list [.schema (.mapping (.mk (some "li") [("title", .text "b")] titles))])]

theorem schema_precompiled : schema.Precompiled mixed := by
  have htitles : Value.Precompiled (.map titles) (.schema (.mapping (.mk (some "li") [("title", .text "b")] titles))) :=
    .whole (.self _) rfl
  refine .map (.field (by simp [Schema.rootKey]) (.self _) ?_)
  exact .field (by simp [Schema.rootKey]) (.list (.cons htitles .nil)) .nil

end Sample

/-- The titles of the sample page, by a schema of which one mapping was compiled before. -/
theorem Extractor.result_precompiled_sample :
    Sample.schema.Precompiled Sample.mixed ∧ Sample.options.mappingHook = none ∧
      ((fresh Sample.page Sample.options).after []).result Sample.mixed none = .ok Sample.value := by
  have h := result_precompiled Sample.schema_precompiled
  refine ⟨Sample.schema_precompiled, rfl, ?_⟩
  rw [h.2.2 Sample.page Sample.options rfl [] [] none]
  exact Sample.result_value

end Harvest
