import Harvest.Proofs.Cell
import Harvest.Proofs.Formed
import Harvest.Proofs.Independence
import Harvest.Proofs.Magnitude
import Harvest.Proofs.Record

/-
  Results are trees that JSON has a notation for.

  Elements and the filters of the library give trees: the numbers among them come from runs of digits and from sizes, and
  are not too great (`Value.IsTree.stable`). Lists of trees and records of trees are trees, as long as the names of a
  record are different, which they are in a proper schema. That every value of a proper schema is a tree is shown along
  the schema (`Meaning.value_isTree` and its companions), for any filters that do not leave the trees.
-/
namespace Harvest
open Markup

/-- Absence, truth values, integers of a bounded number of digits, texts, and the lists and records that are made of
these, each name standing once in a record. -/
inductive Value.IsTree : Value → Prop where
  | null : IsTree .null
  | bool (b : Bool) : IsTree (.bool b)
  | int {i : Int} (fits : i.natAbs < 10 ^ Numeral.maxDigits) : IsTree (.int i)
  | text (s : String) : IsTree (.text s)
  | list {vs : List Value} (members : ∀ v ∈ vs, IsTree v) : IsTree (.list vs)
  | record {r : Record} (distinct : r.keys.Nodup) (members : ∀ f ∈ r, IsTree f.2) : IsTree (.ofRecord r)

/-! ## Expressions -/

theorem Value.IsTree.stable : Stable IsTree where
  null := .null
  text := .text
  bool := .bool
  texts ss := by
    refine .list fun v hv => ?_
    obtain ⟨s, -, rfl⟩ := List.mem_map.mp hv
    exact .text s
  nodeType e := by
    have hten : 10 ^ 1 ≤ 10 ^ Numeral.maxDigits := Nat.pow_le_pow_right (by decide) (by decide)
    refine .int ?_
    split
    · exact Nat.lt_of_lt_of_le (by decide) hten
    · exact Nat.lt_of_lt_of_le (by decide) hten
  number h := by
    unfold Filter.numberOf at h
    split at h
    · next n hn =>
      cases h
      exact .int (Numeral.natural?_lt hn)
    · cases h
  size h := by
    unfold Filter.bytesOf at h
    split at h
    · cases h
      exact .null
    · split at h
      · next i hi =>
        cases h
        exact .int (Double.truncate?_mul_lt hi)
      · cases h

/-! ## Schemas -/

/-- A record of trees with some of the given names in their order. -/
structure Value.Record.Treelike (names : List String) (r : Value.Record) : Prop where
  ordered : r.keys.Sublist names
  members : ∀ f ∈ r, f.2.IsTree

theorem Value.Record.Treelike.isTree {names : List String} {r : Value.Record} (h : r.Treelike names)
    (hnames : names.Nodup) : (ofRecord r).IsTree := .record (hnames.sublist h.ordered) h.members

/-- Columns of trees under the given names. -/
structure Columns.Treelike (names : List String) (cs : Columns) : Prop where
  keys : cs.keys = names
  members : ∀ c ∈ cs, ∀ v ∈ c.2, v.IsTree

/-- The records of columns of trees are trees. -/
theorem Columns.Treelike.zip {names : List String} {cs : Columns} (h : cs.Treelike names) (hnames : names.Nodup) :
    ∀ v ∈ cs.zip.map Value.ofRecord, v.IsTree := by
  have hdistinct : cs.keys.Nodup := h.keys ▸ hnames
  intro v hv
  obtain ⟨r, hr, rfl⟩ := List.mem_map.mp hv
  obtain ⟨i, -, rfl⟩ := List.mem_map.mp hr
  refine .record (hdistinct.sublist (keys_recordAt hdistinct i)) ?_
  intro f hf
  obtain ⟨c, hc, hfc⟩ := exists_of_mem_recordAt hdistinct hf
  exact h.members c hc f.2 hfc

theorem Columns.Treelike.cons {names : List String} {cs : Columns} (h : cs.Treelike names) {k : String}
    {vs : List Value} (hvs : ∀ v ∈ vs, v.IsTree) : Treelike (k :: names) ((k, vs) :: cs) :=
  ⟨by rw [keys_cons, h.keys], List.forall_mem_cons.mpr ⟨hvs, h.members⟩⟩

theorem isTree_blankToNull {vs : List Value} (h : ∀ v ∈ vs, v.IsTree) : ∀ v ∈ vs.map blankToNull, v.IsTree := by
  intro v hv
  obtain ⟨w, hw, rfl⟩ := List.mem_map.mp hv
  unfold blankToNull
  split
  · exact .null
  · exact h w hw

/-- An engine without hooks whose filters make trees of trees. -/
structure Engine.Treelike (x : Engine) : Prop where
  filters : ∀ p ∈ x.dialect.filters, p.2.Preserves Value.IsTree
  queryHook : x.queryHook = none
  mappingHook : x.mappingHook = none

namespace Meaning
variable [Css.Library] {x : Engine} {expand : Expansion}

theorem single_isTree (hx : x.Treelike) {e : String} {scope : Scope} {v : Value} (h : single x e scope = .ok v) :
    v.IsTree := single_mem Value.IsTree.stable hx.filters hx.queryHook h

theorem plural_isTree (hx : x.Treelike) {e : String} {scope : Scope} {vs : List Value}
    (h : plural x e scope = .ok vs) : ∀ v ∈ vs, v.IsTree := plural_mem Value.IsTree.stable hx.filters h

/-- One record for each match of a root: they are trees when what fills them is. -/
theorem records_isTree (hx : x.Treelike) {source : Entries} {root : String}
    {fill : Scope → Except Fault Value.Record} {scope : Scope} {us : List Value} {names : List String}
    (h : records x expand source root fill scope = .ok us) (hnames : names.Nodup)
    (hfill : ∀ s r, fill s = .ok r → r.Treelike names) : ∀ u ∈ us, u.IsTree := by
  rw [records_eq hx.mappingHook] at h
  obtain ⟨s, -, h⟩ := bind_eq_ok.mp h
  intro u hu
  obtain ⟨e, -, hu⟩ := exists_of_mapM h hu
  obtain ⟨_, r, -, hr, rfl⟩ := filled_eq_ok.mp hu
  exact (hfill _ r hr).isTree hnames

mutual

/-- The value of a proper schema is a tree. -/
theorem value_isTree (hx : x.Treelike) {scope : Scope} : ∀ {s : Compiled} {w : Value}, s.Proper →
    value x expand scope s = .ok w → w.IsTree
  | .text _, _, _, h => single_isTree hx h
  | .mapping (.mk root fs source), w, hfs, h => by
    have hfs : ProperFields fs := hfs
    rw [value_mapping hx.mappingHook] at h
    obtain ⟨s, r, -, hr, rfl⟩ := filled_eq_ok.mp h
    exact (fields_treelike hx hfs hr).isTree hfs.nodup
  | .list is, w, his, h => by
    obtain ⟨ws, hws, h⟩ := bind_eq_ok.mp h
    cases h
    exact .list (items_isTree hx his hws)

theorem fields_treelike (hx : x.Treelike) {scope : Scope} : ∀ {fs : List (String × Compiled)} {r : Value.Record},
    ProperFields fs → fields x expand scope fs = .ok r → r.Treelike (fs.map (·.1))
  | [], r, _, h => by
    cases h
    exact ⟨.slnil, by simp⟩
  | (k, s) :: fs, r, hfs, h => by
    obtain ⟨v, hv, h⟩ := bind_eq_ok.mp h
    obtain ⟨q, hq, h⟩ := bind_eq_ok.mp h
    have hvalue := value_isTree hx hfs.2.2.1 hv
    have hrest := fields_treelike hx hfs.2.2.2 hq
    cases h
    -- a field whose value is null is left out
    unfold withField
    split
    · exact ⟨hrest.ordered.cons k, hrest.members⟩
    · exact ⟨hrest.ordered.cons_cons k, List.forall_mem_cons.mpr ⟨hvalue, hrest.members⟩⟩

theorem items_isTree (hx : x.Treelike) {scope : Scope} : ∀ {is : List (Item Entries)} {ws : List Value},
    ProperItems is → items x expand scope is = .ok ws → ∀ w ∈ ws, w.IsTree
  | [], ws, _, h => by
    cases h
    simp
  | .text e :: is, ws, his, h => by
    have his : ProperItems is := his
    obtain ⟨us, hus, h⟩ := bind_eq_ok.mp h
    obtain ⟨vs, hvs, h⟩ := bind_eq_ok.mp h
    cases h
    have hkept : ∀ u ∈ us.filter (!·.isNull), u.IsTree := fun u hu => plural_isTree hx hus u (List.mem_of_mem_filter hu)
    exact List.forall_mem_append.mpr ⟨hkept, items_isTree hx his hvs⟩
  | .mapping (.mk (some root) fs source) :: is, ws, his, h => by
    obtain ⟨us, hus, h⟩ := bind_eq_ok.mp h
    obtain ⟨vs, hvs, h⟩ := bind_eq_ok.mp h
    cases h
    have hrecords := records_isTree hx hus his.1.nodup fun _ _ => fields_treelike hx his.1
    have hkept : ∀ u ∈ us.filter (!·.isBlank), u.IsTree := fun u hu => hrecords u (List.mem_of_mem_filter hu)
    exact List.forall_mem_append.mpr ⟨hkept, items_isTree hx his.2 hvs⟩
  | .mapping (.mk none fs source) :: is, ws, his, h => by
    obtain ⟨cs, hcs, h⟩ := bind_eq_ok.mp h
    obtain ⟨vs, hvs, h⟩ := bind_eq_ok.mp h
    cases h
    exact List.forall_mem_append.mpr
      ⟨(columns_treelike hx his.1 hcs).zip his.1.nodup, items_isTree hx his.2 hvs⟩

theorem columns_treelike (hx : x.Treelike) {scope : Scope} : ∀ {fs : List (String × Compiled)} {cs : Columns},
    ProperFields fs → columns x expand scope fs = .ok cs → cs.Treelike (fs.map (·.1))
  | [], cs, _, h => by
    cases h
    exact ⟨rfl, by simp⟩
  | (k, .text e) :: fs, cs, hfs, h => by
    obtain ⟨vs, hvs, h⟩ := bind_eq_ok.mp h
    obtain ⟨ds, hds, h⟩ := bind_eq_ok.mp h
    cases h
    exact (columns_treelike hx hfs.2.2.2 hds).cons (plural_isTree hx hvs)
  | (k, .mapping (.mk (some root) gs source)) :: fs, cs, hfs, h => by
    have hgs : ProperFields gs := hfs.2.2.1
    obtain ⟨us, hus, h⟩ := bind_eq_ok.mp h
    obtain ⟨ds, hds, h⟩ := bind_eq_ok.mp h
    cases h
    have hrecords := records_isTree hx hus hgs.nodup fun _ _ => fields_treelike hx hgs
    exact (columns_treelike hx hfs.2.2.2 hds).cons (isTree_blankToNull hrecords)
  | (k, .mapping (.mk none gs source)) :: fs, cs, hfs, h => by
    have hgs : ProperFields gs := hfs.2.2.1
    obtain ⟨bs, hbs, h⟩ := bind_eq_ok.mp h
    obtain ⟨ds, hds, h⟩ := bind_eq_ok.mp h
    cases h
    have hrecords := (columns_treelike hx hgs hbs).zip hgs.nodup
    exact (columns_treelike hx hfs.2.2.2 hds).cons (isTree_blankToNull hrecords)
  | (k, .list is) :: fs, cs, hfs, h => by
    obtain ⟨ds, hds, h⟩ := bind_eq_ok.mp h
    cases h
    -- a list makes a column without values
    exact (columns_treelike hx hfs.2.2.2 hds).cons (by simp)

end

end Meaning

/-! ## Calls -/

variable [Css.Library]

/-- What an extractor without hooks gives is a tree, if its filters make trees of trees. -/
theorem Extractor.result_isTree {page : Element} {o : Options} (ho : o.engine.Treelike) {schema : Value}
    (hschema : schema.Formed) {r : Value} (h : (fresh page o).result schema none = .ok r) : r.IsTree := by
  have hresult : (fresh page o).result schema none = Meaning.resolve o.engine schema (.of page) :=
    result_after page o [] schema none
  rw [hresult] at h
  obtain ⟨s, hs, hvalue⟩ := bind_eq_ok.mp h
  unfold Meaning.compile at hs
  split at hs
  · next t ht =>
    cases hs
    exact Meaning.value_isTree ho (hschema.proper ht) hvalue
  · cases hs

end Harvest
