import Harvest.Proofs.Alignment
import Harvest.Proofs.Column
import Mathlib.Data.List.Perm.Basic

/-
  The order of keys.

  `Value.Reordered` and `Schema.Reordered` compare two values, or two schemas, that differ at most in the order in which
  the entries of mappings, or their fields, stand, at any depth; lists are compared member by member. The order makes no
  other difference:
    1. `Value.Reordered.compile` — a reordered value writes down a reordered schema; the root is looked up, so its
       position plays no part.
    2. `value_reordered` and its companions — reordered schemas come to reordered values.
    3. So a mapping comes to a record without fields on both sides, or on none, and is left out of a list on both.
  Every level is one step along a permutation, which carries the results with it (`List.perm_comp_forall₂`), and then a
  step from member to member. Columns have names of their own, so their records take the same from them in any order.
-/
namespace Harvest
open Markup

/-! ## Another order -/

mutual

/-- Whether two schemas differ at most in the order of fields, at any depth. What mappings were made from does not
count. -/
inductive Schema.Reordered : Compiled → Compiled → Prop where
  | refl (s : Compiled) : Schema.Reordered s s
  | mapping {root : Option String} {fs gs hs : List (String × Compiled)} {source source' : Entries}
      (hperm : fs.Perm gs) (h : FieldsReordered gs hs) :
      Schema.Reordered (.mapping (.mk root fs source)) (.mapping (.mk root hs source'))
  | list {is js : List (Item Entries)} (h : ItemsReordered is js) : Schema.Reordered (.list is) (.list js)

/-- The same within fields that stand in one order. -/
inductive FieldsReordered : List (String × Compiled) → List (String × Compiled) → Prop where
  | nil : FieldsReordered [] []
  | cons {k : String} {s t : Compiled} {fs gs : List (String × Compiled)} (h : Schema.Reordered s t)
      (hfs : FieldsReordered fs gs) : FieldsReordered ((k, s) :: fs) ((k, t) :: gs)

/-- The same within items. -/
inductive ItemsReordered : List (Item Entries) → List (Item Entries) → Prop where
  | nil : ItemsReordered [] []
  | cons {i j : Item Entries} {is js : List (Item Entries)} (h : Schema.Reordered i.toSchema j.toSchema)
      (his : ItemsReordered is js) : ItemsReordered (i :: is) (j :: js)

end

mutual

/-- Whether two values differ at most in the order of the entries of mappings, at any depth. -/
inductive Value.Reordered : Value → Value → Prop where
  | refl (v : Value) : Value.Reordered v v
  | list {vs ws : List Value} (h : MembersReordered vs ws) : Value.Reordered (.list vs) (.list ws)
  | tuple {vs ws : List Value} (h : MembersReordered vs ws) : Value.Reordered (.tuple vs) (.tuple ws)
  | map {ds es fs : Entries} (hperm : ds.Perm es) (h : EntriesReordered es fs) : Value.Reordered (.map ds) (.map fs)
  | schema {s t : Compiled} (h : s.Reordered t) : Value.Reordered (.schema s) (.schema t)

/-- The same within the members of a list. -/
inductive MembersReordered : List Value → List Value → Prop where
  | nil : MembersReordered [] []
  | cons {v w : Value} {vs ws : List Value} (h : Value.Reordered v w) (hvs : MembersReordered vs ws) :
      MembersReordered (v :: vs) (w :: ws)

/-- The same within entries that stand in one order. -/
inductive EntriesReordered : Entries → Entries → Prop where
  | nil : EntriesReordered [] []
  | cons {k v w : Value} {es fs : Entries} (h : Value.Reordered v w) (hes : EntriesReordered es fs) :
      EntriesReordered ((k, v) :: es) ((k, w) :: fs)

end

theorem membersReordered {vs ws : List Value} (h : List.Forall₂ Value.Reordered vs ws) : MembersReordered vs ws := by
  induction h with
  | nil => exact .nil
  | cons hvw _ ih => exact .cons hvw ih

theorem EntriesReordered.forall₂ : ∀ {es fs : Entries}, EntriesReordered es fs →
    List.Forall₂ (fun e f => e.1 = f.1 ∧ e.2.Reordered f.2) es fs
  | _, _, .nil => .nil
  | _, _, .cons h hes => .cons ⟨rfl, h⟩ hes.forall₂

namespace Value.Reordered
variable {v w : Value}

theorem isNull (h : v.Reordered w) : v.isNull = w.isNull := by
  cases h <;> rfl

theorem isEmptyMap (h : v.Reordered w) : v.isEmptyMap = w.isEmptyMap := by
  cases h with
  | @map ds es fs hperm h =>
    have hlength : ds.length = fs.length := hperm.length_eq.trans h.forall₂.length_eq
    cases ds <;> cases fs <;> simp_all [Value.isEmptyMap]
  | _ => rfl

theorem isBlank (h : v.Reordered w) : v.isBlank = w.isBlank := by
  have hblank : ∀ u : Value, u.isBlank = (u.isNull || u.isEmptyMap) := by
    intro u
    unfold Value.isBlank Value.isNull Value.isEmptyMap
    split <;> simp_all
  rw [hblank, hblank, h.isNull, h.isEmptyMap]

theorem blankToNull (h : v.Reordered w) : (Harvest.blankToNull v).Reordered (Harvest.blankToNull w) := by
  rw [Harvest.blankToNull, Harvest.blankToNull, ← h.isBlank]
  split
  · exact .refl .null
  · exact h

theorem present? (h : v.Reordered w) : Option.Rel Reordered v.present? w.present? := by
  rw [Value.present?, Value.present?, ← h.isNull]
  split
  · exact .none
  · exact .some h

end Value.Reordered

namespace Value

/-- A record whose fields stand in another order, perhaps with reordered values. -/
def Record.Reordered (r q : Record) : Prop := ∃ p, r.Perm p ∧ List.Forall₂ (Paired Value.Reordered) p q

theorem Record.Reordered.ofRecord {r q : Record} (h : r.Reordered q) : (ofRecord r).Reordered (ofRecord q) := by
  obtain ⟨p, hperm, hall⟩ := h
  refine .map (hperm.map _) ?_
  clear hperm
  induction hall with
  | nil => exact .nil
  | @cons f g _ _ hfg _ ih =>
    obtain ⟨k, v⟩ := f
    obtain ⟨j, w⟩ := g
    obtain ⟨rfl, hvw⟩ := hfg
    exact .cons hvw ih

end Value

/-! ## Schemas -/

theorem properFields_iff {σ : Type} {fs : List (String × Schema σ)} :
    ProperFields fs ↔ (fs.map (·.1)).Nodup ∧ ∀ f ∈ fs, f.1 ≠ "$root" ∧ f.2.Proper := by
  induction fs with
  | nil => simp [ProperFields]
  | cons f fs ih =>
    obtain ⟨k, s⟩ := f
    rw [ProperFields, ih, List.map_cons, List.nodup_cons, List.forall_mem_cons]
    tauto

theorem ProperFields.perm {σ : Type} {fs gs : List (String × Schema σ)} (h : ProperFields fs) (hperm : fs.Perm gs) :
    ProperFields gs := by
  rw [properFields_iff] at h ⊢
  exact ⟨(hperm.map _).nodup h.1, fun g hg => h.2 g (hperm.mem_iff.mpr hg)⟩

theorem properItems_cons {σ : Type} {i : Item σ} {is : List (Item σ)} :
    ProperItems (i :: is) ↔ i.toSchema.Proper ∧ ProperItems is := by
  match i with
  | .text _ => simp [ProperItems, Item.toSchema, Schema.Proper]
  | .mapping (.mk _ _ _) => simp [ProperItems, Item.toSchema, Schema.Proper]

theorem Schema.Proper.withoutRoot {m : Mapping Entries} (h : (Schema.mapping m).Proper) :
    (Schema.mapping m.withoutRoot).Proper := by
  obtain ⟨root, fs, source⟩ := m
  exact h

theorem Schema.Reordered.withoutRoot {m m' : Mapping Entries} (h : (Schema.mapping m).Reordered (.mapping m')) :
    (Schema.mapping m.withoutRoot).Reordered (.mapping m'.withoutRoot) := by
  cases h with
  | refl => exact .refl _
  | mapping hperm h => exact .mapping hperm h

namespace Value
variable {k : String} {ds es : Entries}

/-- Among different keys, the order makes no difference to what is found. -/
theorem find?_perm (hds : Distinct ds) (hperm : ds.Perm es) : find? (.text k) ds = find? (.text k) es := by
  cases hes : find? (.text k) es with
  | none =>
    rw [find?_eq_none] at hes ⊢
    exact fun e he => hes e (hperm.mem_iff.mp he)
  | some v => exact find?_of_mem hds (hperm.mem_iff.mpr (mem_of_find? hes))

theorem find?_reordered (k : Value) (h : EntriesReordered ds es) :
    Option.Rel Reordered (find? k ds) (find? k es) := by
  have hall := h.forall₂
  clear h
  induction hall with
  | nil => exact .none
  | @cons d e _ _ hde _ ih =>
    rw [find?, find?, ← hde.1]
    split
    · exact .some hde.2
    · exact ih

end Value

namespace Schema

/-- A root is found wherever it stands. -/
theorem rootOf_reordered {ds es fs : Entries} (hds : Value.Distinct ds) (hperm : ds.Perm es)
    (h : EntriesReordered es fs) {root : Option String} (hroot : rootOf ds = .ok root) : rootOf fs = .ok root := by
  have hrel := Value.find?_reordered rootKey h
  rw [rootOf, rootKey, Value.find?_perm hds hperm, ← rootKey] at hroot
  rw [rootOf]
  generalize Value.find? rootKey es = a, Value.find? rootKey fs = b at hrel hroot ⊢
  cases hrel with
  | none => exact hroot
  | @some v w hvw =>
    -- what names a root, or none, is no mapping and so the same on both sides
    cases hvw with
    | refl => exact hroot
    | _ => simp at hroot

theorem compile_schema (s : Compiled) : compile (.schema s) = .ok s := by rw [compile]

theorem Reordered.toItem {i : Item Entries} {t : Compiled} (h : i.toSchema.Reordered t) :
    ∃ j : Item Entries, t = j.toSchema := by
  cases i with
  | text e =>
    rw [Item.toSchema] at h
    cases h
    exact ⟨.text e, rfl⟩
  | mapping m =>
    rw [Item.toSchema] at h
    cases h <;> exact ⟨.mapping _, rfl⟩

end Schema

mutual

/-- A reordered value writes down a reordered schema. -/
theorem Value.Reordered.compile : ∀ {v w : Value}, v.Reordered w → v.Formed → ∀ {s : Compiled},
    Schema.compile v = .ok s → ∃ t, Schema.compile w = .ok t ∧ s.Reordered t
  | _, _, .refl _, _, s, hs => ⟨s, hs, .refl s⟩
  | _, _, .list h, .list members, s, hs => by
    obtain ⟨is, his, rfl⟩ := Schema.compile_list.mp hs
    obtain ⟨js, hjs, hre⟩ := MembersReordered.compile h members (Schema.compileItems_eq_ok.mp his)
    exact ⟨.list js, Schema.compile_list.mpr ⟨js, Schema.compileItems_eq_ok.mpr hjs, rfl⟩, .list hre⟩
  | _, _, .tuple h, .tuple members, s, hs => by
    obtain ⟨is, his, rfl⟩ := Schema.compile_tuple.mp hs
    obtain ⟨js, hjs, hre⟩ := MembersReordered.compile h members (Schema.compileItems_eq_ok.mp his)
    exact ⟨.list js, Schema.compile_tuple.mpr ⟨js, Schema.compileItems_eq_ok.mpr hjs, rfl⟩, .list hre⟩
  | _, _, .map hperm h, .map distinct members, s, hs => by
    obtain ⟨root, fs, hroot, hfs, rfl⟩ := Schema.compile_map.mp hs
    -- the fields follow the permutation of their entries, wherever the root stands among these
    have hwithout := hperm.filter fun (l, _) => !Value.sameKey l Schema.rootKey
    obtain ⟨gs, hgs, hpermf⟩ := List.perm_comp_forall₂ hwithout.symm (Schema.compileFields_eq_ok.mp hfs)
    obtain ⟨hs, hhs, hre⟩ := EntriesReordered.compile h (fun e he => members e (hperm.mem_iff.mpr he)) hgs
    exact ⟨_, Schema.compile_map.mpr ⟨root, hs, Schema.rootOf_reordered distinct hperm h hroot,
      Schema.compileFields_eq_ok.mpr hhs, rfl⟩, .mapping hpermf.symm hre⟩
  | _, _, .schema h, _, s, hs => by
    obtain rfl := by simpa [Schema.compile] using hs
    exact ⟨_, by rw [Schema.compile], h⟩

theorem MembersReordered.compile : ∀ {vs ws : List Value}, MembersReordered vs ws → (∀ v ∈ vs, v.Formed) →
    ∀ {is : List (Item Entries)}, List.Forall₂ (fun v i => Schema.compile v = .ok i.toSchema) vs is →
    ∃ js, List.Forall₂ (fun v i => Schema.compile v = .ok i.toSchema) ws js ∧ ItemsReordered is js
  | _, _, .nil, _, _, .nil => ⟨[], .nil, .nil⟩
  | _, _, .cons h hvs, hf, _, .cons hi his => by
    obtain ⟨hv, hf⟩ := List.forall_mem_cons.mp hf
    obtain ⟨t, ht, hit⟩ := Value.Reordered.compile h hv hi
    obtain ⟨j, rfl⟩ := hit.toItem
    obtain ⟨js, hjs, hre⟩ := MembersReordered.compile hvs hf his
    exact ⟨j :: js, .cons ht hjs, .cons hit hre⟩

theorem EntriesReordered.compile : ∀ {es fs : Entries}, EntriesReordered es fs → (∀ e ∈ es, e.2.Formed) →
    ∀ {gs : List (String × Compiled)},
    List.Forall₂ (fun e f => e.1 = .text f.1 ∧ Schema.compile e.2 = .ok f.2) (Value.without Schema.rootKey es) gs →
    ∃ hs, List.Forall₂ (fun e f => e.1 = .text f.1 ∧ Schema.compile e.2 = .ok f.2) (Value.without Schema.rootKey fs) hs
      ∧ FieldsReordered gs hs
  | _, _, .nil, _, _, .nil => ⟨[], .nil, .nil⟩
  | _, _, @EntriesReordered.cons k v w es fs h hes, hf, gs, hgs => by
    obtain ⟨hv, hes'⟩ := List.forall_mem_cons.mp hf
    by_cases hk : k = Schema.rootKey
    · subst hk
      rw [Schema.rootKey, Value.without_cons_same] at hgs ⊢
      exact EntriesReordered.compile hes hes' hgs
    · rw [Schema.rootKey, Value.without_cons_other hk] at hgs ⊢
      obtain ⟨⟨j, s⟩, gs, ⟨hkj, hs⟩, htail, rfl⟩ := List.forall₂_cons_left_iff.mp hgs
      obtain ⟨t, ht, hst⟩ := Value.Reordered.compile h hv hs
      obtain ⟨hs, hhs, hre⟩ := EntriesReordered.compile hes hes' htail
      exact ⟨(j, t) :: hs, .cons ⟨hkj, ht⟩ hhs, .cons hst hre⟩

end

/-! ## Columns -/

namespace Columns

theorem height_perm {cs ds : Columns} (h : cs.Perm ds) : cs.height = ds.height := by
  induction h with
  | nil => rfl
  | cons c _ ih => rw [height, height, ih]
  | swap c d cs => simp only [height]; omega
  | trans _ _ ihc ihd => rw [ihc, ihd]

/-- Columns under the same names with values that are reordered one by one. -/
def Reordered (cs ds : Columns) : Prop := List.Forall₂ (Paired (List.Forall₂ Value.Reordered)) cs ds

theorem Reordered.height {cs ds : Columns} (h : cs.Reordered ds) : cs.height = ds.height := by
  induction h with
  | nil => rfl
  | cons hcd _ ih => rw [Columns.height, Columns.height, ih, hcd.2.length_eq]

end Columns

theorem cell?_reordered {vs ws : List Value} (h : List.Forall₂ Value.Reordered vs ws) (i : Nat) :
    Option.Rel Value.Reordered (cell? vs i) (cell? ws i) := by
  induction h generalizing i with
  | nil => exact .none
  | cons hvw _ ih =>
    cases i with
    | zero => exact hvw.present?
    | succ i => exact ih i

/-- Records of columns take the same from them in any order. -/
theorem Columns.zip_reordered {cs ds es : Columns} (hcs : cs.keys.Nodup) (hperm : cs.Perm ds) (h : ds.Reordered es) :
    List.Forall₂ Value.Reordered (cs.zip.map Value.ofRecord) (es.zip.map Value.ofRecord) := by
  have hds : ds.keys.Nodup := (hperm.map _).nodup hcs
  have hes : es.keys.Nodup := by
    rw [Columns.keys, Paired.names h]
    exact hds
  have hrecord : ∀ i, (cs.recordAt i).Reordered (es.recordAt i) := by
    intro i
    rw [recordAt_eq hcs, recordAt_eq hes]
    refine ⟨_, hperm.filterMap _, List.rel_filterMap (R := Paired (List.Forall₂ Value.Reordered)) ?_ h⟩
    rintro ⟨k, vs⟩ ⟨j, ws⟩ ⟨rfl, hvw⟩
    have hcell := cell?_reordered hvw i
    show Option.Rel _ ((cell? vs i).map (k, ·)) ((cell? ws i).map (k, ·))
    generalize cell? vs i = a, cell? ws i = b at hcell ⊢
    cases hcell with
    | none => exact .none
    | some hcell => exact .some ⟨rfl, hcell⟩
  rw [zip, zip, height_perm hperm, h.height, List.map_map, List.map_map, List.forall₂_map_left_iff,
    List.forall₂_map_right_iff, List.forall₂_same]
  exact fun i _ => (hrecord i).ofRecord

/-! ## Results -/

namespace Schema.Reordered
variable {s t : Compiled} {vs ws : List Value}

/-- Schemas in another order treat their values alike. -/
theorem inColumn (h : s.Reordered t) (hvs : List.Forall₂ Value.Reordered vs ws) :
    List.Forall₂ Value.Reordered (s.inColumn vs) (t.inColumn ws) := by
  have hblank := List.rel_map (fun _ _ h => h.blankToNull) hvs
  cases h with
  | refl =>
    cases s with
    | mapping m => exact hblank
    | _ => exact hvs
  | mapping => exact hblank
  | list => exact hvs

theorem inList (h : s.Reordered t) (hvs : List.Forall₂ Value.Reordered vs ws) :
    List.Forall₂ Value.Reordered (s.inList vs) (t.inList ws) := by
  have hnull : List.Forall₂ Value.Reordered (vs.filter (!·.isNull)) (ws.filter (!·.isNull)) :=
    List.rel_filter (fun v w h => by simp only [h.isNull]) hvs
  have hblank : List.Forall₂ Value.Reordered (vs.filter (!·.isBlank)) (ws.filter (!·.isBlank)) :=
    List.rel_filter (fun v w h => by simp only [h.isBlank]) hvs
  cases h with
  | refl =>
    match s with
    | .text _ => exact hnull
    | .mapping (.mk (some _) _ _) => exact hblank
    | .mapping (.mk none _ _) | .list _ => exact hvs
  | @mapping root =>
    cases root with
    | none => exact hvs
    | some _ => exact hblank
  | list => exact hvs

end Schema.Reordered

namespace Meaning
variable [Css.Library] {x : Engine} {expand : Expansion} {fs gs hs : List (String × Compiled)}

/-- Whether a second way to fill records comes to reordered ones wherever the first comes to one. -/
def FillsReordered (fill fill' : Scope → Except Fault Value.Record) : Prop :=
  ∀ scope r, fill scope = .ok r → ∃ q, fill' scope = .ok q ∧ r.Reordered q

/-- Fields in another order fill records whose fields stand in another order. -/
theorem fields_perm (hperm : fs.Perm gs)
    (h : ∀ {scope ps}, List.Forall₂ (Paired fun s v => value x expand scope s = .ok v) gs ps →
      ∃ qs, List.Forall₂ (Paired fun s v => value x expand scope s = .ok v) hs qs
        ∧ List.Forall₂ (Paired Value.Reordered) ps qs) :
    FillsReordered (fun s => fields x expand s fs) (fun s => fields x expand s hs) := by
  intro scope r hr
  obtain ⟨os, hos, rfl⟩ := fields_eq_ok.mp hr
  obtain ⟨ps, hps, hpermp⟩ := List.perm_comp_forall₂ hperm.symm hos
  obtain ⟨qs, hqs, hre⟩ := h hps
  refine ⟨_, fields_eq_ok.mpr ⟨qs, hqs, rfl⟩, _, hpermp.symm.filter _, List.rel_filter ?_ hre⟩
  rintro ⟨k, v⟩ ⟨j, w⟩ ⟨-, hvw⟩
  simp only [hvw.isNull]

/-- Fields in another order make columns that stand in another order, and the same records of them. -/
theorem columns_perm {scope : Scope} {cs : Columns} (hfs : ProperFields fs) (hperm : fs.Perm gs)
    (h : ∀ {cs}, List.Forall₂ (Paired fun s vs => column x expand scope s = .ok vs) gs cs →
      ∃ ds, List.Forall₂ (Paired fun s vs => column x expand scope s = .ok vs) hs ds ∧ Columns.Reordered cs ds)
    (hcs : columns x expand scope fs = .ok cs) :
    ∃ ds, columns x expand scope hs = .ok ds
      ∧ List.Forall₂ Value.Reordered (cs.zip.map Value.ofRecord) (ds.zip.map Value.ofRecord) := by
  have hall := columns_eq_ok.mp hcs
  obtain ⟨ds, hds, hpermc⟩ := List.perm_comp_forall₂ hperm.symm hall
  obtain ⟨es, hes, hre⟩ := h hds
  have hkeys : cs.keys = fs.map (·.1) := Paired.names hall
  exact ⟨es, columns_eq_ok.mpr hes, Columns.zip_reordered (hkeys ▸ hfs.nodup) hpermc.symm hre⟩

/-- One record for each match of a root. -/
theorem records_reordered (hx : x.mappingHook = none) {source source' : Entries} {root : String}
    {fill fill' : Scope → Except Fault Value.Record} (h : FillsReordered fill fill') {scope : Scope} {vs : List Value}
    (hvs : records x expand source root fill scope = .ok vs) :
    ∃ ws, records x expand source' root fill' scope = .ok ws ∧ List.Forall₂ Value.Reordered vs ws := by
  rw [records_eq hx, bind_eq_ok] at hvs
  obtain ⟨s, hs, hvs⟩ := hvs
  rw [records_eq hx, hs, ok_bind]
  clear hs
  generalize s.elements = es at hvs ⊢
  rw [mapM_eq_ok] at hvs
  induction hvs with
  | nil => exact ⟨[], rfl, .nil⟩
  | @cons e v es vs hv _ ih =>
    obtain ⟨s, r, hs, hr, rfl⟩ := filled_eq_ok.mp hv
    obtain ⟨q, hq, hrq⟩ := h s r hr
    obtain ⟨ws, hws, hre⟩ := ih
    refine ⟨.ofRecord q :: ws, ?_, .cons hrq.ofRecord hre⟩
    rw [mapM_eq_ok] at hws ⊢
    exact .cons (filled_eq_ok.mpr ⟨s, q, hs, hq, rfl⟩) hws

mutual

/-- Reordered schemas come to reordered values. -/
theorem value_reordered (hx : x.mappingHook = none) : ∀ {s t : Compiled}, s.Reordered t → s.Proper →
    ∀ {scope : Scope} {v : Value}, value x expand scope s = .ok v →
    ∃ w, value x expand scope t = .ok w ∧ v.Reordered w
  | _, _, .refl _, _, _, v, hv => ⟨v, hv, .refl v⟩
  | _, _, .mapping hperm h, hfs, scope, v, hv => by
    rw [value_mapping hx] at hv ⊢
    obtain ⟨s, r, hs, hr, rfl⟩ := filled_eq_ok.mp hv
    obtain ⟨q, hq, hrq⟩ := fields_perm hperm (fields_reordered hx h (ProperFields.perm hfs hperm)) s r hr
    exact ⟨_, filled_eq_ok.mpr ⟨s, q, hs, hq, rfl⟩, hrq.ofRecord⟩
  | _, _, .list h, his, scope, v, hv => by
    rw [value, bind_eq_ok] at hv
    obtain ⟨vs, hvs, ⟨⟩⟩ := hv
    obtain ⟨ws, hws, hre⟩ := items_reordered hx h his hvs
    refine ⟨.list ws, ?_, .list (membersReordered hre)⟩
    rw [value, hws]
    rfl

theorem fields_reordered (hx : x.mappingHook = none) : ∀ {fs gs : List (String × Compiled)}, FieldsReordered fs gs →
    ProperFields fs → ∀ {scope : Scope} {ps : Value.Record},
    List.Forall₂ (Paired fun s v => value x expand scope s = .ok v) fs ps →
    ∃ qs, List.Forall₂ (Paired fun s v => value x expand scope s = .ok v) gs qs
      ∧ List.Forall₂ (Paired Value.Reordered) ps qs
  | _, _, .nil, _, _, _, .nil => ⟨[], .nil, .nil⟩
  | _, _, .cons h hfs, ⟨_, _, hs, hproper⟩, _, (_, _) :: _, .cons ⟨hk, hv⟩ hps => by
    obtain ⟨w, hw, hvw⟩ := value_reordered hx h hs hv
    obtain ⟨qs, hqs, hre⟩ := fields_reordered hx hfs hproper hps
    exact ⟨(_, w) :: qs, .cons ⟨hk, hw⟩ hqs, .cons ⟨rfl, hvw⟩ hre⟩

theorem many_reordered (hx : x.mappingHook = none) : ∀ {s t : Compiled}, s.Reordered t → s.Proper →
    ∀ {scope : Scope} {vs : List Value}, many x expand scope s = .ok vs →
    ∃ ws, many x expand scope t = .ok ws ∧ List.Forall₂ Value.Reordered vs ws
  | _, _, .refl _, _, _, vs, hvs => ⟨vs, hvs, List.forall₂_same.mpr fun v _ => .refl v⟩
  -- below a root the fields are met one by one again, without a root as columns
  | _, _, @Schema.Reordered.mapping (some root) fs gs hs source source' hperm h, hfs, scope, vs, hvs => by
    rw [many] at hvs ⊢
    exact records_reordered hx (fields_perm hperm (fields_reordered hx h (ProperFields.perm hfs hperm))) hvs
  | _, _, @Schema.Reordered.mapping none fs gs hs source source' hperm h, hfs, scope, vs, hvs => by
    rw [many, bind_eq_ok] at hvs
    obtain ⟨cs, hcs, ⟨⟩⟩ := hvs
    obtain ⟨ds, hds, hre⟩ := columns_perm hfs hperm (columns_reordered hx h (ProperFields.perm hfs hperm)) hcs
    refine ⟨ds.zip.map Value.ofRecord, ?_, hre⟩
    rw [many, hds]
    rfl
  | _, _, .list _, _, _, _, hvs => by
    rw [many] at hvs ⊢
    cases hvs
    exact ⟨[], rfl, .nil⟩

theorem columns_reordered (hx : x.mappingHook = none) : ∀ {fs gs : List (String × Compiled)}, FieldsReordered fs gs →
    ProperFields fs → ∀ {scope : Scope} {cs : Columns},
    List.Forall₂ (Paired fun s vs => column x expand scope s = .ok vs) fs cs →
    ∃ ds, List.Forall₂ (Paired fun s vs => column x expand scope s = .ok vs) gs ds ∧ Columns.Reordered cs ds
  | _, _, .nil, _, _, _, .nil => ⟨[], .nil, .nil⟩
  | _, _, .cons h hfs, ⟨_, _, hs, hproper⟩, _, (_, _) :: _, .cons ⟨hk, hvs⟩ hcs => by
    obtain ⟨us, hus, rfl⟩ := column_eq_ok.mp hvs
    obtain ⟨ws, hws, hre⟩ := many_reordered hx h hs hus
    obtain ⟨ds, hds, hrest⟩ := columns_reordered hx hfs hproper hcs
    have hcolumn := column_eq_ok.mpr ⟨ws, hws, rfl⟩
    exact ⟨(_, Schema.inColumn _ ws) :: ds, .cons ⟨hk, hcolumn⟩ hds, .cons ⟨rfl, h.inColumn hre⟩ hrest⟩

theorem items_reordered (hx : x.mappingHook = none) : ∀ {is js : List (Item Entries)}, ItemsReordered is js →
    ProperItems is → ∀ {scope : Scope} {vs : List Value}, items x expand scope is = .ok vs →
    ∃ ws, items x expand scope js = .ok ws ∧ List.Forall₂ Value.Reordered vs ws
  | _, _, .nil, _, _, vs, hvs => ⟨vs, hvs, List.forall₂_same.mpr fun v _ => .refl v⟩
  | _, _, .cons h his, hproper, scope, vs, hvs => by
    obtain ⟨hi, hproper⟩ := properItems_cons.mp hproper
    rw [items_cons, bind_eq_ok] at hvs
    obtain ⟨_, hitem, hvs⟩ := hvs
    obtain ⟨us, hus, rfl⟩ := item_eq_ok.mp hitem
    obtain ⟨vs, hrest, ⟨⟩⟩ := bind_eq_ok.mp hvs
    obtain ⟨us', hus', hre⟩ := many_reordered hx h hi hus
    obtain ⟨vs', hvs', hre'⟩ := items_reordered hx his hproper hrest
    refine ⟨_, ?_, List.rel_append (h.inList hre) hre'⟩
    rw [items_cons, item_eq_ok.mpr ⟨us', hus', rfl⟩, ok_bind, hvs']
    rfl

end

end Meaning

/-! ## Calls -/

/-- A schema with its keys in another order, at any depth, the root among them, writes down a schema as well, and each
call with it comes to the same value but for the order of the entries of mappings. Records below the roots of mappings
that stand for each other are empty on both sides or on none, so a list drops the same ones. -/
theorem Extractor.result_reordered [Css.Library] (page : Element) (o : Options) (hm : o.mappingHook = none)
    (history history' : List Call) {v v' : Value} (hv : v.Formed) (h : v.Reordered v') {s : Compiled}
    (hs : Schema.compile v = .ok s) :
    let x := (fresh page o).after history
    let y := (fresh page o).after history'
    (∃ t, Schema.compile v' = .ok t ∧ s.Reordered t)
      ∧ (∀ scope w, x.result v scope = .ok w → ∃ w', y.result v' scope = .ok w' ∧ w.Reordered w')
      ∧ ∀ m m' : Mapping Entries, (Schema.mapping m).Proper → (Schema.mapping m).Reordered (.mapping m') → ∀ e u,
        x.result (.schema (.mapping m.withoutRoot)) (some (.of e)) = .ok u →
          ∃ u', y.result (.schema (.mapping m'.withoutRoot)) (some (.of e)) = .ok u'
            ∧ u.isEmptyMap = u'.isEmptyMap := by
  have hx : o.engine.mappingHook = none := by simp [Options.engine, hm]
  -- without a hook nothing is expanded, so the two schemas may differ in depth
  have law : ∀ {v v' : Value} {s t : Compiled}, Schema.compile v = .ok s → Schema.compile v' = .ok t → s.Proper →
      s.Reordered t → ∀ scope w, Meaning.resolve o.engine v scope = .ok w →
      ∃ w', Meaning.resolve o.engine v' scope = .ok w' ∧ w.Reordered w' := by
    intro v v' s t hs ht hproper hst scope w hw
    rw [Meaning.resolve_ok hs, Meaning.value_expand hx _ (Meaning.expanding o.engine 0)] at hw
    rw [Meaning.resolve_ok ht, Meaning.value_expand hx _ (Meaning.expanding o.engine 0)]
    exact Meaning.value_reordered hx hst hproper hw
  obtain ⟨t, ht, hst⟩ := h.compile hv hs
  simp only [result_after]
  refine ⟨⟨t, ht, hst⟩, fun scope w hw => law hs ht (hv.proper hs) hst _ w hw, ?_⟩
  intro m m' hproper hmm e u hu
  obtain ⟨u', hu', huu⟩ := law (Schema.compile_schema _) (Schema.compile_schema _) hproper.withoutRoot hmm.withoutRoot
    (.of e) u hu
  exact ⟨u', hu', huu.isEmptyMap⟩

namespace Sample

/-- The sample schema from the last key to the first, the root behind the field. -/
def turned : Value :=
  .map [(.text "items", .list [.map [(.text "title", .text "b"), (Schema.rootKey, .text "li")]]),
    (.text "title", .text "b")]

theorem schema_turned : schema.Reordered turned := by
  refine .map (List.Perm.swap _ _ []) (.cons (.list (.cons ?_ .nil)) (.cons (.refl _) .nil))
  exact .map (List.Perm.swap _ _ []) (.cons (.refl _) (.cons (.refl _) .nil))

/-- The titles as a compiled mapping. -/
def titlesMapping : Mapping Entries := .mk (some "li") [("title", .text "b")] titles

theorem result_second :
    (Extractor.fresh page options).result (.schema (.mapping titlesMapping.withoutRoot)) (some (.of second))
      = .ok (.ofRecord []) := by
  have hr :
      (Extractor.fresh page options).result (.schema (.mapping titlesMapping.withoutRoot)) (some (.of second)) = _ :=
    Extractor.result_after page options [] _ _
  rw [hr, titlesMapping, Mapping.withoutRoot, Meaning.resolve_schema rfl, Option.getD_some,
    filled_title _ single_second]
  rfl

end Sample

/-- The sample and its turned form, one asked after the other: the values are the same but for the order of keys, and
the second item makes an empty record with both. -/
theorem Extractor.result_reordered_sample :
    let x := (fresh Sample.page Sample.options).after []
    let y := (fresh Sample.page Sample.options).after [⟨Sample.schema, none⟩]
    (∃ w', y.result Sample.turned none = .ok w' ∧ Sample.value.Reordered w')
      ∧ x.result (.schema (.mapping Sample.titlesMapping.withoutRoot)) (some (.of Sample.second)) = .ok (.ofRecord [])
      ∧ ∃ u', y.result (.schema (.mapping Sample.titlesMapping.withoutRoot)) (some (.of Sample.second)) = .ok u'
        ∧ u'.isEmptyMap = true := by
  obtain ⟨-, hvalue, hrecord⟩ := result_reordered Sample.page Sample.options rfl [] [⟨Sample.schema, none⟩]
    Sample.schema_formed Sample.schema_turned rfl
  have hproper : (Schema.mapping Sample.titlesMapping).Proper := by
    simp [Sample.titlesMapping, Schema.Proper, ProperFields]
  obtain ⟨u', hu', hempty⟩ := hrecord _ _ hproper (.refl _) _ _ Sample.result_second
  exact ⟨hvalue none _ Sample.result_value, Sample.result_second, u', hu', hempty.symm⟩

end Harvest
