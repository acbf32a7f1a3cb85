import Harvest.Proofs.Cell
import Harvest.Proofs.Formed
import Harvest.Proofs.Independence
import Harvest.Proofs.Record
import Harvest.Proofs.Root

/-
  Results have the shape of their schemas.

  Absence is left out in three ways: fields of a record that have no value, records of a list that have no field, and
  places of a column where nothing stands. `Schema.Shapes` says what is left, following the schema:
    * a mapping gives a record, which has all fields but the texts that came to nothing (`FieldShapes`);
    * a list gives a list, of cells, of records with fields, or of records put together by columns (`ItemShapes`);
    * in the latter a field may be missing, and one that is itself a list always is (`ColumnShapes`).
  That every call gives such a value needs the filters of the library, and that no hook puts in what it likes. It is
  shown along the schema (`value_shapes` and its companions); that nothing of such a shape holds an absence inside
  (`Value.Full`) is then read off the shape.
-/
namespace Harvest
open Markup

/-! ## Shapes -/

/-- A record whose names are some of the given ones in their order, each of them once, and not the key of the root. -/
structure Value.Record.Named (names : List String) (r : Value.Record) : Prop where
  ordered : r.keys.Sublist names
  distinct : r.keys.Nodup
  rootless : "$root" ∉ r.keys

/-- A value that is a record with some of the given names. -/
def Value.IsRecord (names : List String) (P : Record → Prop) (w : Value) : Prop :=
  ∃ r, w = .ofRecord r ∧ r.Named names ∧ P r

/-- The names of a record are those of the fields of a proper mapping. -/
theorem ProperFields.named {fs : List (String × Compiled)} {r : Value.Record} (hfs : ProperFields fs)
    (h : r.keys.Sublist (fs.map (·.1))) : r.Named (fs.map (·.1)) :=
  ⟨h, hfs.nodup.sublist h, fun hr => hfs.root_not_mem (h.subset hr)⟩

section
variable [Css.Library] (own : String → Scope → Except Fault Value)

mutual

/-- The shape of what a schema gives in a scope, where `own` is what an expression comes to by itself. -/
def Schema.Shapes (scope : Scope) : Compiled → Value → Prop
  | .text e, w => own e scope = .ok w ∧ w.IsCell
  | .mapping (.mk root fs _), w =>
    ∃ s, Meaning.narrow root scope = .ok s ∧ w.IsRecord (fs.map (·.1)) (FieldShapes s fs)
  | .list is, w => ∃ ws, w = .list ws ∧ ItemShapes scope is ws

/-- What the fields of a record hold: a text what it comes to, if that is anything, and all others their value. -/
def FieldShapes (scope : Scope) : List (String × Compiled) → Value.Record → Prop
  | [], _ => True
  | (k, .text e) :: fs, r =>
    (∃ w, own e scope = .ok w ∧ w.IsCell ∧ r.lookup k = w.present?) ∧ FieldShapes scope fs r
  | (k, s) :: fs, r => (∃ w, Schema.Shapes scope s w ∧ r.lookup k = some w) ∧ FieldShapes scope fs r

/-- What the items of a list give, one after the other. -/
def ItemShapes (scope : Scope) : List (Item Entries) → List Value → Prop
  | [], ws => ws = []
  | .text _ :: is, ws => ∃ us vs, ws = us ++ vs ∧ (∀ u ∈ us, u.IsCell ∧ u ≠ .null) ∧ ItemShapes scope is vs
  | .mapping (.mk (some root) fs _) :: is, ws => ∃ us vs, ws = us ++ vs
      ∧ (∃ s, Meaning.found (scope.findAll root) = .ok s ∧ ∀ u ∈ us, u ≠ .ofRecord []
        ∧ ∃ e ∈ s.elements, u.IsRecord (fs.map (·.1)) (FieldShapes (.of e) fs))
      ∧ ItemShapes scope is vs
  | .mapping (.mk none fs _) :: is, ws => ∃ us vs, ws = us ++ vs
      ∧ (∀ u ∈ us, u.IsRecord (fs.map (·.1)) (ColumnShapes scope fs))
      ∧ ItemShapes scope is vs

/-- What the fields of a record hold that was put together by columns. -/
def ColumnShapes (scope : Scope) : List (String × Compiled) → Value.Record → Prop
  | [], _ => True
  | (k, .text _) :: fs, r => (∀ w, r.lookup k = some w → w.IsCell ∧ w ≠ .null) ∧ ColumnShapes scope fs r
  | (k, .mapping (.mk (some root) gs _)) :: fs, r =>
    (∃ s, Meaning.found (scope.findAll root) = .ok s ∧ ∀ w, r.lookup k = some w → w ≠ .ofRecord []
        ∧ ∃ e ∈ s.elements, w.IsRecord (gs.map (·.1)) (FieldShapes (.of e) gs))
      ∧ ColumnShapes scope fs r
  | (k, .mapping (.mk none gs _)) :: fs, r =>
    (∀ w, r.lookup k = some w → w ≠ .ofRecord [] ∧ w.IsRecord (gs.map (·.1)) (ColumnShapes scope gs))
      ∧ ColumnShapes scope fs r
  | (k, .list _) :: fs, r => r.lookup k = none ∧ ColumnShapes scope fs r

end

variable {own} {scope : Scope} {fs : List (String × Compiled)} {q r : Value.Record}

/-- What fields hold is seen by their names alone. -/
theorem FieldShapes.congr (h : ∀ k ∈ fs.map (·.1), q.lookup k = r.lookup k) (hq : FieldShapes own scope fs q) :
    FieldShapes own scope fs r := by
  induction fs with
  | nil => trivial
  | cons f fs ih =>
    have hfs := fun hq => ih (fun k hk => h k (List.mem_cons_of_mem _ hk)) hq
    have hf := h f.1 List.mem_cons_self
    match f with
    | (k, .text _) | (k, .mapping (.mk _ _ _)) | (k, .list _) =>
      simp only [FieldShapes] at hq ⊢
      exact ⟨by rw [← hf]; exact hq.1, hfs hq.2⟩

theorem ColumnShapes.congr (h : ∀ k ∈ fs.map (·.1), q.lookup k = r.lookup k) (hq : ColumnShapes own scope fs q) :
    ColumnShapes own scope fs r := by
  induction fs with
  | nil => trivial
  | cons f fs ih =>
    have hfs := fun hq => ih (fun k hk => h k (List.mem_cons_of_mem _ hk)) hq
    have hf := h f.1 List.mem_cons_self
    match f with
    | (k, .text _) | (k, .mapping (.mk (some _) _ _)) | (k, .mapping (.mk none _ _)) | (k, .list _) =>
      simp only [ColumnShapes] at hq ⊢
      exact ⟨by rw [← hf]; exact hq.1, hfs hq.2⟩

/-- Only what an expression gives may be absent. -/
theorem Schema.Shapes.ne_null {s : Compiled} {w : Value} (h : s.Shapes own scope w) (hs : ∀ e, s ≠ .text e) :
    w ≠ .null := by
  match s, h with
  | .text e, _ => exact absurd rfl (hs e)
  | .mapping (.mk _ _ _), h =>
    obtain ⟨_, _, _, rfl, _⟩ := h
    exact nofun
  | .list _, h =>
    obtain ⟨_, rfl, _⟩ := h
    exact nofun

/-- The columns that fields make, all records of which have their shape. -/
structure Columns.Shaped (own : String → Scope → Except Fault Value) (scope : Scope)
    (fs : List (String × Compiled)) (cs : Columns) : Prop where
  keys : cs.keys = fs.map (·.1)
  named : ∀ i, (cs.recordAt i).Named (fs.map (·.1))
  shapes : ∀ i, ColumnShapes own scope fs (cs.recordAt i)

theorem Columns.Shaped.nil : Shaped own scope [] [] :=
  ⟨rfl, fun _ => ⟨.slnil, .nil, List.not_mem_nil⟩, fun _ => trivial⟩

/-- A column in front of others: the records have one more field, and the others stay as they are. -/
theorem Columns.Shaped.cons {k : String} {s : Compiled} {vs : List Value} {cs : Columns}
    (hfs : ProperFields ((k, s) :: fs)) (hcs : Shaped own scope fs cs)
    (hs : ∀ i r, r.lookup k = cell? vs i → ColumnShapes own scope fs r → ColumnShapes own scope ((k, s) :: fs) r) :
    Shaped own scope ((k, s) :: fs) ((k, vs) :: cs) := by
  have hkeys : Columns.keys ((k, vs) :: cs) = ((k, s) :: fs).map (·.1) := by
    rw [keys_cons, hcs.keys, List.map_cons]
  have hrecord : ∀ i, recordAt ((k, vs) :: cs) i = Value.consField k (cell? vs i) (cs.recordAt i) :=
    recordAt_cons (hkeys ▸ hfs.nodup)
  refine ⟨hkeys, fun i => ?_, fun i => ?_⟩
  · rw [hrecord]
    exact hfs.named (Value.keys_consField (hcs.named i).ordered)
  · rw [hrecord]
    refine hs i _ ?_ ?_
    · exact Value.lookup_consField_self fun hr => hfs.2.1 ((hcs.named i).ordered.subset hr)
    · exact (hcs.shapes i).congr fun j hj => (Value.lookup_consField_of_ne (ne_of_mem_of_not_mem hj hfs.2.1)).symm

end

/-! ## Values have their shapes -/

/-- An engine with the filters of the library and without hooks. -/
structure Engine.Plain (x : Engine) : Prop where
  filters : x.dialect.filters = Filter.standard
  queryHook : x.queryHook = none
  mappingHook : x.mappingHook = none

namespace Meaning
variable [Css.Library] {x : Engine} {expand : Expansion}

/-- One record for each match of a root: what holds of a record in the scope of a match holds of one of them. -/
theorem records_isRecord (hx : x.mappingHook = none) {source : Entries} {root : String}
    {fill : Scope → Except Fault Value.Record} {scope : Scope} {us : List Value} {names : List String}
    {P : Element → Value.Record → Prop} (h : records x expand source root fill scope = .ok us)
    (hfill : ∀ e r, fill (.of e) = .ok r → r.Named names ∧ P e r) :
    ∃ s, found (scope.findAll root) = .ok s ∧ ∀ u ∈ us, ∃ e ∈ s.elements, u.IsRecord names (P e) := by
  rw [records_eq hx] at h
  obtain ⟨s, hs, h⟩ := bind_eq_ok.mp h
  refine ⟨s, hs, fun u hu => ?_⟩
  obtain ⟨e, he, hu⟩ := exists_of_mapM h hu
  obtain ⟨_, r, hnarrow, hr, rfl⟩ := filled_eq_ok.mp hu
  cases hnarrow
  exact ⟨e, he, r, rfl, hfill e r hr⟩

mutual

/-- The value of a proper schema has its shape. -/
theorem value_shapes (hx : x.Plain) {scope : Scope} : ∀ {s : Compiled} {w : Value}, s.Proper →
    value x expand scope s = .ok w → s.Shapes (single x) scope w
  | .text _, _, _, h => ⟨h, single_isCell hx.filters hx.queryHook h⟩
  | .mapping (.mk root fs source), w, hfs, h => by
    rw [value_mapping hx.mappingHook] at h
    obtain ⟨s, r, hs, hr, rfl⟩ := filled_eq_ok.mp h
    exact ⟨s, hs, r, rfl, fields_shapes hx hfs hr⟩
  | .list is, w, his, h => by
    obtain ⟨ws, hws, h⟩ := bind_eq_ok.mp h
    cases h
    exact ⟨ws, rfl, items_shapes hx his hws⟩

theorem fields_shapes (hx : x.Plain) {scope : Scope} : ∀ {fs : List (String × Compiled)} {r : Value.Record},
    ProperFields fs → fields x expand scope fs = .ok r → r.Named (fs.map (·.1)) ∧ FieldShapes (single x) scope fs r
  | [], r, _, h => by
    cases h
    exact ⟨⟨.slnil, .nil, List.not_mem_nil⟩, trivial⟩
  | (k, s) :: fs, r, hfs, h => by
    obtain ⟨v, hv, h⟩ := bind_eq_ok.mp h
    obtain ⟨q, hq, h⟩ := bind_eq_ok.mp h
    obtain ⟨hnamed, hshapes⟩ := fields_shapes hx hfs.2.2.2 hq
    have hs := value_shapes hx hfs.2.2.1 hv
    cases h
    rw [Value.withField_eq]
    -- the new field is the only one under its name, and changes none of the others
    have hself : (Value.consField k v.present? q).lookup k = v.present? :=
      Value.lookup_consField_self fun hk => hfs.2.1 (hnamed.ordered.subset hk)
    have hrest : FieldShapes (single x) scope fs (Value.consField k v.present? q) :=
      hshapes.congr fun j hj => (Value.lookup_consField_of_ne (ne_of_mem_of_not_mem hj hfs.2.1)).symm
    refine ⟨hfs.named (Value.keys_consField hnamed.ordered), ?_⟩
    match s, hs with
    | .text e, hs => exact ⟨⟨v, hs.1, hs.2, hself⟩, hrest⟩
    | .mapping (.mk _ _ _), hs | .list _, hs =>
      have hv : v.present? = some v := Value.present?_of_ne (hs.ne_null nofun)
      exact ⟨⟨v, hs, hself.trans hv⟩, hrest⟩

theorem items_shapes (hx : x.Plain) {scope : Scope} : ∀ {is : List (Item Entries)} {ws : List Value},
    ProperItems is → items x expand scope is = .ok ws → ItemShapes (single x) scope is ws
  | [], ws, _, h => by
    cases h
    rfl
  | .text e :: is, ws, his, h => by
    obtain ⟨us, hus, h⟩ := bind_eq_ok.mp h
    obtain ⟨vs, hvs, h⟩ := bind_eq_ok.mp h
    cases h
    refine ⟨_, vs, rfl, fun u hu => ?_, items_shapes hx his hvs⟩
    obtain ⟨hu, hnull⟩ := List.mem_filter.mp hu
    refine ⟨plural_isCell hx.filters hus u hu, ?_⟩
    rintro rfl
    cases hnull
  | .mapping (.mk (some root) fs source) :: is, ws, his, h => by
    obtain ⟨us, hus, h⟩ := bind_eq_ok.mp h
    obtain ⟨vs, hvs, h⟩ := bind_eq_ok.mp h
    cases h
    obtain ⟨s, hs, hrecords⟩ := records_isRecord hx.mappingHook hus fun _ _ => fields_shapes hx his.1
    refine ⟨_, vs, rfl, ⟨s, hs, fun u hu => ?_⟩, items_shapes hx his.2 hvs⟩
    obtain ⟨hu, hb⟩ := List.mem_filter.mp hu
    exact ⟨(Value.ne_of_isBlank (by simpa using hb)).2, hrecords u hu⟩
  | .mapping (.mk none fs source) :: is, ws, his, h => by
    obtain ⟨cs, hcs, h⟩ := bind_eq_ok.mp h
    obtain ⟨vs, hvs, h⟩ := bind_eq_ok.mp h
    cases h
    refine ⟨_, vs, rfl, fun u hu => ?_, items_shapes hx his.2 hvs⟩
    obtain ⟨r, hr, rfl⟩ := List.mem_map.mp hu
    obtain ⟨i, -, rfl⟩ := List.mem_map.mp hr
    have hshaped := columns_shapes hx his.1 hcs
    exact ⟨_, rfl, hshaped.named i, hshaped.shapes i⟩

theorem columns_shapes (hx : x.Plain) {scope : Scope} : ∀ {fs : List (String × Compiled)} {cs : Columns},
    ProperFields fs → columns x expand scope fs = .ok cs → cs.Shaped (single x) scope fs
  | [], cs, _, h => by
    cases h
    exact .nil
  | (k, .text e) :: fs, cs, hfs, h => by
    obtain ⟨vs, hvs, h⟩ := bind_eq_ok.mp h
    obtain ⟨ds, hds, h⟩ := bind_eq_ok.mp h
    cases h
    refine (columns_shapes hx hfs.2.2.2 hds).cons hfs fun i r hr hrest => ⟨fun w hw => ?_, hrest⟩
    obtain ⟨hmem, hnull⟩ := mem_of_cell? (hr.symm.trans hw)
    exact ⟨plural_isCell hx.filters hvs w hmem, hnull⟩
  | (k, .mapping (.mk (some root) gs source)) :: fs, cs, hfs, h => by
    obtain ⟨us, hus, h⟩ := bind_eq_ok.mp h
    obtain ⟨ds, hds, h⟩ := bind_eq_ok.mp h
    cases h
    obtain ⟨s, hs, hrecords⟩ := records_isRecord hx.mappingHook hus fun _ _ => fields_shapes hx hfs.2.2.1
    refine (columns_shapes hx hfs.2.2.2 hds).cons hfs fun i r hr hrest =>
      ⟨⟨s, hs, fun w hw => ?_⟩, hrest⟩
    obtain ⟨hmem, hnull⟩ := mem_of_cell? (hr.symm.trans hw)
    obtain ⟨hmem, hne⟩ := mem_of_mem_map_blankToNull hmem hnull
    exact ⟨hne, hrecords w hmem⟩
  | (k, .mapping (.mk none gs source)) :: fs, cs, hfs, h => by
    obtain ⟨bs, hbs, h⟩ := bind_eq_ok.mp h
    obtain ⟨ds, hds, h⟩ := bind_eq_ok.mp h
    cases h
    refine (columns_shapes hx hfs.2.2.2 hds).cons hfs fun i r hr hrest => ⟨fun w hw => ?_, hrest⟩
    obtain ⟨hmem, hnull⟩ := mem_of_cell? (hr.symm.trans hw)
    obtain ⟨hmem, hne⟩ := mem_of_mem_map_blankToNull hmem hnull
    obtain ⟨p, hp, rfl⟩ := List.mem_map.mp hmem
    obtain ⟨j, -, rfl⟩ := List.mem_map.mp hp
    have hshaped := columns_shapes hx hfs.2.2.1 hbs
    exact ⟨hne, _, rfl, hshaped.named j, hshaped.shapes j⟩
  | (k, .list is) :: fs, cs, hfs, h => by
    obtain ⟨ds, hds, h⟩ := bind_eq_ok.mp h
    cases h
    exact (columns_shapes hx hfs.2.2.2 hds).cons hfs fun i r hr hrest => ⟨hr, hrest⟩

end

end Meaning

/-! ## Nothing is absent inside -/

/-- A value with no absence in it, however deep. -/
inductive Value.Full : Value → Prop where
  | text (s : String) : Full (.text s)
  | int (i : Int) : Full (.int i)
  | bool (b : Bool) : Full (.bool b)
  | list {ws : List Value} (members : ∀ w ∈ ws, Full w) : Full (.list ws)
  | record {r : Record} (members : ∀ f ∈ r, Full f.2) : Full (.ofRecord r)

theorem Value.IsCell.full {w : Value} (h : w.IsCell) (hw : w ≠ .null) : w.Full := by
  cases h with
  | null => exact absurd rfl hw
  | text s => exact .text s
  | int i => exact .int i
  | bool b => exact .bool b
  | texts ss =>
    refine .list fun w hw => ?_
    obtain ⟨s, -, rfl⟩ := List.mem_map.mp hw
    exact .text s

/-- A record is full when what stands under its names is. -/
theorem Value.IsRecord.full {names : List String} {P : Record → Prop} {w : Value} (h : w.IsRecord names P)
    (hP : ∀ r, P r → ∀ k ∈ names, ∀ v, r.lookup k = some v → v.Full) : w.Full := by
  obtain ⟨r, rfl, hnamed, hr⟩ := h
  refine .record fun f hf => ?_
  have hk : f.1 ∈ r.keys := List.mem_map_of_mem hf
  exact hP r hr f.1 (hnamed.ordered.subset hk) f.2 (lookup_of_mem hnamed.distinct hf)

section
variable [Css.Library] {own : String → Scope → Except Fault Value} {scope : Scope}

mutual

/-- A value that has the shape of a schema is absent or full. -/
theorem Schema.Shapes.full {scope : Scope} : ∀ {s : Compiled} {w : Value}, s.Shapes own scope w → w ≠ .null → w.Full
  | .text _, _, h, hw => h.2.full hw
  | .mapping (.mk _ _ _), _, ⟨_, _, h⟩, _ => h.full fun _ => FieldShapes.full
  | .list _, _, ⟨_, rfl, h⟩, _ => .list (ItemShapes.full h)

theorem FieldShapes.full {scope : Scope} : ∀ {fs : List (String × Compiled)} {r : Value.Record},
    FieldShapes own scope fs r → ∀ k ∈ fs.map (·.1), ∀ v, r.lookup k = some v → v.Full
  | [], _, _ => fun _ hk => absurd hk List.not_mem_nil
  | (k, .text e) :: fs, r, ⟨⟨w, _, hw, hk⟩, hfs⟩ => by
    refine List.forall_mem_cons.mpr ⟨fun v hv => ?_, FieldShapes.full hfs⟩
    obtain ⟨rfl, hnull⟩ := Value.present?_eq_some.mp (hk.symm.trans hv)
    exact hw.full hnull
  | (k, .mapping m) :: fs, r, ⟨⟨w, hw, hk⟩, hfs⟩ => by
    refine List.forall_mem_cons.mpr ⟨fun v hv => ?_, FieldShapes.full hfs⟩
    cases hk.symm.trans hv
    exact Schema.Shapes.full hw (hw.ne_null nofun)
  | (k, .list is) :: fs, r, ⟨⟨w, hw, hk⟩, hfs⟩ => by
    refine List.forall_mem_cons.mpr ⟨fun v hv => ?_, FieldShapes.full hfs⟩
    cases hk.symm.trans hv
    exact Schema.Shapes.full hw (hw.ne_null nofun)

theorem ItemShapes.full {scope : Scope} : ∀ {is : List (Item Entries)} {ws : List Value},
    ItemShapes own scope is ws → ∀ w ∈ ws, w.Full
  | [], _, rfl => fun _ hw => absurd hw List.not_mem_nil
  | .text _ :: is, _, ⟨us, vs, rfl, hus, hvs⟩ => by
    refine List.forall_mem_append.mpr ⟨fun u hu => ?_, ItemShapes.full hvs⟩
    exact (hus u hu).1.full (hus u hu).2
  | .mapping (.mk (some _) fs _) :: is, _, ⟨us, vs, rfl, ⟨_, _, hus⟩, hvs⟩ => by
    refine List.forall_mem_append.mpr ⟨fun u hu => ?_, ItemShapes.full hvs⟩
    obtain ⟨-, e, -, hrecord⟩ := hus u hu
    exact hrecord.full fun _ => FieldShapes.full
  | .mapping (.mk none fs _) :: is, _, ⟨us, vs, rfl, hus, hvs⟩ => by
    refine List.forall_mem_append.mpr ⟨fun u hu => ?_, ItemShapes.full hvs⟩
    exact (hus u hu).full fun _ => ColumnShapes.full

theorem ColumnShapes.full {scope : Scope} : ∀ {fs : List (String × Compiled)} {r : Value.Record},
    ColumnShapes own scope fs r → ∀ k ∈ fs.map (·.1), ∀ v, r.lookup k = some v → v.Full
  | [], _, _ => fun _ hk => absurd hk List.not_mem_nil
  | (k, .text _) :: fs, r, ⟨hk, hfs⟩ => by
    refine List.forall_mem_cons.mpr ⟨fun v hv => ?_, ColumnShapes.full hfs⟩
    exact (hk v hv).1.full (hk v hv).2
  | (k, .mapping (.mk (some _) gs _)) :: fs, r, ⟨⟨_, _, hk⟩, hfs⟩ => by
    refine List.forall_mem_cons.mpr ⟨fun v hv => ?_, ColumnShapes.full hfs⟩
    obtain ⟨-, e, -, hrecord⟩ := hk v hv
    exact hrecord.full fun _ => FieldShapes.full
  | (k, .mapping (.mk none gs _)) :: fs, r, ⟨hk, hfs⟩ => by
    refine List.forall_mem_cons.mpr ⟨fun v hv => ?_, ColumnShapes.full hfs⟩
    exact (hk v hv).2.full fun _ => ColumnShapes.full
  | (k, .list _) :: fs, r, ⟨hk, hfs⟩ => by
    refine List.forall_mem_cons.mpr ⟨fun v hv => ?_, ColumnShapes.full hfs⟩
    cases hk.symm.trans hv

end
end

/-! ## A page to try -/

namespace Sample

/-- Options with the filters of the library, and nothing else set. -/
def options : Options := ⟨{ Options.standardDialect with filters := Filter.standard }, none, none⟩

/-- The title of each item. -/
def titles : Entries := [(Schema.rootKey, .text "li"), (.text "title", .text "b")]

/-- A title, and the titles of all items. -/
def schema : Value := .map [(.text "title", .text "b"), (.text "items", .list [.map titles])]

theorem titles_formed : (Value.map titles).Formed :=
  .map (by simp [titles, Schema.rootKey]) (by simp [titles, Value.Formed.text])

theorem schema_formed : schema.Formed :=
  .map (by simp) (by simp [Value.Formed.text, Value.Formed.list, titles_formed])

/-- Whether what was read is a selector of some name, and nothing else. -/
def selects (name : String) : Except QueryFault (Query × List Event) → Bool
  | .ok (q, _) => q.selector == some name && q.part.isNone && q.steps.isEmpty && q.expression == name
  | .error _ => false

theorem eq_of_selects {name : String} {r : Except QueryFault (Query × List Event)} (h : selects name r = true) :
    ∃ events, r = .ok ({ selector := some name, expression := name }, events) := by
  rcases r with f | ⟨⟨s, p, ss, e⟩, events⟩
  · cases h
  · simp only [selects, Bool.and_eq_true, beq_iff_eq, Option.isNone_iff_eq_none, List.isEmpty_iff] at h
    obtain ⟨⟨⟨rfl, rfl⟩, rfl⟩, rfl⟩ := h
    exact ⟨events, rfl⟩

/-- The pattern of selectors takes a name for a selector. -/
theorem query_title : Meaning.query options.engine "b" = .ok { selector := some "b", expression := "b" } := by
  -- a query holds functions and cannot be compared as a whole
  have h : selects "b" (options.dialect.read "b") = true := by decide +kernel
  obtain ⟨events, hr⟩ := eq_of_selects h
  simp only [Meaning.query, Options.engine, hr]

theorem read_title : Css.Library.read "b" = .ok (Css.Selector.finder [.one [.name "b"]]) := rfl

/-- What the name comes to in an element, wherever it reads as a selector. -/
theorem single_name {x : Engine} (hx : x.queryHook = none)
    (hq : Meaning.query x "b" = .ok { selector := some "b", expression := "b" }) {e : Element} {t : Option Element}
    (h : Css.selectFirst? [.one [.name "b"]] e = t) :
    Meaning.single x "b" (.of e) = .ok ((t.map fun t => .text t.text).getD .null) := by
  rw [Meaning.single_eq hx, hq]
  cases t <;> simp [Meaning.takeOne, Meaning.findOne, Scope.findFirst?, Scope.search, read_title, Css.Selector.finder,
    Scope.of, h, Meaning.found, Meaning.render, Query.render, Query.raw, runSteps]

theorem selectFirst_title : Css.selectFirst? [.one [.name "b"]] page = some title := by
  rw [Css.selectFirst?, descendants_page]
  rfl

theorem single_page : Meaning.single options.engine "b" (.of page) = .ok (.text "x") := by
  rw [single_name rfl query_title selectFirst_title]
  rfl

theorem single_first : Meaning.single options.engine "b" (.of first) = .ok (.text "x") := by
  have hfind : Css.selectFirst? [.one [.name "b"]] first = some title := by
    rw [Css.selectFirst?, Element.descendants, first]
    simp only [Element.within]
    rfl
  rw [single_name rfl query_title hfind]
  rfl

theorem single_second : Meaning.single options.engine "b" (.of second) = .ok .null := by
  have hfind : Css.selectFirst? [.one [.name "b"]] second = none := by
    rw [Css.selectFirst?, Element.descendants, second]
    simp only [Element.within]
    rfl
  rw [single_name rfl query_title hfind]
  rfl

/-- The title, and the one item that has a title. -/
def value : Value := .ofRecord [("title", .text "x"), ("items", .list [.ofRecord [("title", .text "x")]])]

theorem filled_title (expand : Meaning.Expansion) {scope : Scope} {v : Value}
    (hv : Meaning.single options.engine "b" scope = .ok v) :
    Meaning.filled none (fun s => Meaning.fields options.engine expand s [("title", .text "b")]) scope
      = .ok (.ofRecord (withField "title" v [])) := by
  simp only [Meaning.filled, Meaning.narrow, Meaning.fields, Meaning.value, hv, ok_bind, pure_eq_ok]

theorem filled_items (expand : Meaning.Expansion) :
    [first, second].mapM (fun e => Meaning.filled none
      (fun s => Meaning.fields options.engine expand s [("title", .text "b")]) (.of e))
      = .ok [.ofRecord [("title", .text "x")], .ofRecord []] := by
  simp only [List.mapM_cons, List.mapM_nil, filled_title expand single_first, filled_title expand single_second, ok_bind,
    pure_eq_ok]
  rfl

theorem items_page (expand : Meaning.Expansion) :
    Meaning.items options.engine expand (.of page) [.mapping (.mk (some "li") [("title", .text "b")] titles)]
      = .ok [.ofRecord [("title", .text "x")]] := by
  rw [Meaning.items, Meaning.records_eq rfl, findAll_items, Meaning.found, ok_bind, elements_items, filled_items, ok_bind,
    Meaning.items]
  rfl

theorem result_value : (Extractor.fresh page options).result schema none = .ok value := by
  have hs : Schema.compile schema = .ok (.mapping (.mk none
    [("title", .text "b"), ("items", .list [.mapping (.mk (some "li") [("title", .text "b")] titles)])] _)) := rfl
  have hr : (Extractor.fresh page options).result schema none = _ := Extractor.result_after page options [] schema none
  rw [hr, Meaning.resolve_ok hs, Option.getD_none, Meaning.value_mapping rfl]
  simp only [Meaning.filled, Meaning.narrow, Meaning.fields, Meaning.value, single_page, items_page, ok_bind,
    pure_eq_ok]
  rfl

end Sample

/-! ## Calls -/

/-- What a call gives has the shape of its schema, where texts come to what they come to as calls of their own; and it
is absent as a whole, or there is no absence in it. -/
theorem Extractor.result_shapes [Css.Library] (page : Element) (o : Options) (hf : o.dialect.filters = Filter.standard)
    (hq : o.queryHook = none) (hm : o.mappingHook = none) (history : List Call) {v : Value} (hv : v.Formed)
    {s : Compiled} (hs : Schema.compile v = .ok s) {scope : Option Scope} {w : Value}
    (h : ((fresh page o).after history).result v scope = .ok w) :
    s.Shapes (fun e s => (fresh page o).result (.text e) (some s)) (scope.getD (.of page)) w
      ∧ (w = .null ∨ w.Full) := by
  have hx : o.engine.Plain := ⟨hf, by simp [Options.engine, hq], by simp [Options.engine, hm]⟩
  have hown : (fun e s => (fresh page o).result (.text e) (some s)) = Meaning.single o.engine := by
    funext e s
    have hr : (fresh page o).result (.text e) (some s) = _ := result_after page o [] (.text e) (some s)
    rw [hr, Meaning.resolve_ok (s := .text e) (by simp [Schema.compile]), Meaning.value]
    rfl
  rw [result_after, Meaning.resolve_ok hs] at h
  have hshapes := Meaning.value_shapes hx (hv.proper hs) h
  rw [hown]
  refine ⟨hshapes, ?_⟩
  by_cases hw : w = .null
  · exact .inl hw
  · exact .inr (hshapes.full hw)

/-- The law for a page of two items, of which one has a title. -/
theorem Extractor.result_shapes_sample :
    ((fresh Sample.page Sample.options).after []).result Sample.schema none = .ok Sample.value
      ∧ ∃ s, Schema.compile Sample.schema = .ok s
        ∧ s.Shapes (fun e s => (fresh Sample.page Sample.options).result (.text e) (some s)) (.of Sample.page)
          Sample.value
        ∧ (Sample.value = .null ∨ Sample.value.Full) :=
  ⟨Sample.result_value, _, rfl, result_shapes Sample.page Sample.options rfl rfl rfl [] Sample.schema_formed rfl
    Sample.result_value⟩

end Harvest
