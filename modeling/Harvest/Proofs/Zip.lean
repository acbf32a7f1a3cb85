import Harvest.Proofs.Record
import Mathlib.Data.List.Induction

/-
  Columns put together to records, when names may come again.

  What the columns hold at a position is a list of names and values, in which a name stands as often as a column of
  that name holds something there (`row`). Writing these one after the other into a record keeps a name in its first
  place and gives it its last value: so a record is looked up from the end of the row (`lookup_recordAt`), and has the
  names of the row without repetitions (`keys_recordAt_eq`). Both go by induction on the columns from the right, one
  column written at a time (`lookup_putField`, `keys_putField`).
    1. `zip_law` — how many records there are, and which fields each has.
-/
namespace Harvest
open Value

variable {k a : String} {v : Value} {r : Record}

/-! ## A field that is written -/

theorem lookup_putField (k : String) (v : Value) (r : Record) (a : String) :
    (putField k v r).lookup a = if a = k then some v else r.lookup a := by
  induction r with
  | nil =>
    rw [putField]
    by_cases h : a = k
    · rw [if_pos h, h, List.lookup_cons_self]
    · rw [if_neg h, lookup_cons_of_ne h]
  | cons f r ih =>
    obtain ⟨j, w⟩ := f
    rw [putField]
    by_cases hj : j = k
    · subst hj
      rw [if_pos (beq_self_eq_true j)]
      by_cases h : a = j
      · rw [if_pos h, h, List.lookup_cons_self]
      · rw [if_neg h, lookup_cons_of_ne h, lookup_cons_of_ne h]
    · rw [if_neg (by simpa using hj)]
      by_cases h : a = j
      · rw [h, List.lookup_cons_self, List.lookup_cons_self, if_neg hj]
      · rw [lookup_cons_of_ne h, lookup_cons_of_ne h, ih]

theorem keys_putField (k : String) (v : Value) (r : Record) :
    (putField k v r).keys = if k ∈ r.keys then r.keys else r.keys ++ [k] := by
  have hcons : ∀ (j : String) (w : Value) (q : Record), Record.keys ((j, w) :: q) = j :: q.keys := fun _ _ _ => rfl
  induction r with
  | nil => rfl
  | cons f r ih =>
    obtain ⟨j, w⟩ := f
    rw [putField, hcons]
    by_cases hj : j = k
    · subst hj
      rw [if_pos (beq_self_eq_true j), if_pos List.mem_cons_self, hcons]
    · rw [if_neg (by simpa using hj), hcons, ih]
      by_cases hk : k ∈ Record.keys r
      · rw [if_pos hk, if_pos (List.mem_cons_of_mem j hk)]
      · rw [if_neg hk, if_neg (by simpa using ⟨Ne.symm hj, hk⟩), List.cons_append]

namespace Columns
variable {cs : Columns} {vs : List Value} {i : Nat}

/-! ## What stands at a position -/

/-- The names and values of the columns that hold something at a position, in order. -/
def row (cs : Columns) (i : Nat) : Record := cs.filterMap fun c => (cell? c.2 i).map (c.1, ·)

theorem row_concat (cs : Columns) (k : String) (vs : List Value) (i : Nat) :
    row (cs ++ [(k, vs)]) i = row cs i ++ ((cell? vs i).map (k, ·)).toList := by
  rw [row, List.filterMap_append, row, List.filterMap_cons]
  cases cell? vs i <;> rfl

theorem recordAt_concat (cs : Columns) (k : String) (vs : List Value) (i : Nat) :
    recordAt (cs ++ [(k, vs)]) i =
      match cell? vs i with
      | none => recordAt cs i
      | some v => putField k v (recordAt cs i) := by
  rw [recordAt, List.foldl_append, List.foldl_cons, List.foldl_nil, putAt_eq]
  rfl

/-- A name has the value of the last column that has the name and holds something. -/
theorem lookup_recordAt (cs : Columns) (i : Nat) (a : String) :
    (cs.recordAt i).lookup a = (cs.row i).reverse.lookup a := by
  induction cs using List.reverseRecOn with
  | nil => rfl
  | append_singleton cs c ih =>
    obtain ⟨k, vs⟩ := c
    rw [recordAt_concat, row_concat]
    cases cell? vs i with
    | none => simpa using ih
    | some v =>
      simp only [Option.map_some, Option.toList_some, List.reverse_concat]
      rw [lookup_putField, ih]
      by_cases h : a = k
      · rw [if_pos h, h, List.lookup_cons_self]
      · rw [if_neg h, lookup_cons_of_ne h]

/-- The names stand in the order of the first columns that hold something. -/
theorem keys_recordAt_eq (cs : Columns) (i : Nat) : (cs.recordAt i).keys = (cs.row i).keys.eraseDups := by
  induction cs using List.reverseRecOn with
  | nil => rfl
  | append_singleton cs c ih =>
    obtain ⟨k, vs⟩ := c
    rw [recordAt_concat, row_concat]
    cases cell? vs i with
    | none => simpa using ih
    | some v =>
      have hkeys : Record.keys (row cs i ++ [(k, v)]) = (row cs i).keys ++ [k] := List.map_append
      simp only [Option.map_some, Option.toList_some]
      rw [keys_putField, ih, hkeys, List.eraseDups_append]
      by_cases hk : k ∈ (row cs i).keys
      · simp [List.removeAll, hk]
      · simp [List.removeAll, hk, List.eraseDups_cons]

theorem mem_keys_recordAt : a ∈ (cs.recordAt i).keys ↔ ∃ c ∈ cs, c.1 = a ∧ ∃ v, c.2[i]? = some v ∧ v ≠ .null := by
  rw [keys_recordAt_eq, List.mem_eraseDups]
  constructor
  · intro h
    obtain ⟨f, hf, rfl⟩ := List.mem_map.mp h
    obtain ⟨c, hc, hf⟩ := List.mem_filterMap.mp hf
    obtain ⟨v, hv, rfl⟩ := Option.map_eq_some_iff.mp hf
    obtain ⟨w, hw, hv⟩ := Option.bind_eq_some_iff.mp hv
    obtain ⟨rfl, hne⟩ := present?_eq_some.mp hv
    exact ⟨c, hc, rfl, w, hw, hne⟩
  · rintro ⟨c, hc, rfl, v, hv, hne⟩
    have hcell : cell? c.2 i = some v := Option.bind_eq_some_iff.mpr ⟨v, hv, present?_of_ne hne⟩
    refine List.mem_map.mpr ⟨(c.1, v), List.mem_filterMap.mpr ⟨c, hc, ?_⟩, rfl⟩
    rw [hcell]
    rfl

/-! ## All positions -/

theorem length_le_height {c : String × List Value} (hc : c ∈ cs) : c.2.length ≤ cs.height := by
  induction cs with
  | nil => cases hc
  | cons d cs ih =>
    rw [height]
    rcases List.mem_cons.mp hc with rfl | hc
    · exact Nat.le_max_left _ _
    · exact Nat.le_trans (ih hc) (Nat.le_max_right _ _)

/-- Of any columns one is the longest. -/
theorem exists_length_eq_height (h : cs ≠ []) : ∃ c ∈ cs, c.2.length = cs.height := by
  induction cs with
  | nil => exact absurd rfl h
  | cons d cs ih =>
    rw [height]
    by_cases hd : height cs ≤ d.2.length
    · exact ⟨d, List.mem_cons_self, (Nat.max_eq_left hd).symm⟩
    · have hcs : cs ≠ [] := by
        rintro rfl
        exact hd (Nat.zero_le _)
      obtain ⟨c, hc, hlength⟩ := ih hcs
      exact ⟨c, List.mem_cons_of_mem d hc, by omega⟩

/-- Where names are different, a record has under each name what the column holds. -/
theorem lookup_recordAt_of_mem (h : cs.keys.Nodup) (hc : (k, vs) ∈ cs) (i : Nat) :
    (cs.recordAt i).lookup k = cell? vs i := by
  rw [recordAt_eq h]
  cases hv : cell? vs i with
  | some v =>
    have hnodup : ((cs.filterMap fun c => (cell? c.2 i).map (c.1, ·)).map (·.1)).Nodup := by
      rw [← recordAt_eq h]
      exact (keys_recordAt h i).nodup h
    refine lookup_of_mem hnodup (List.mem_filterMap.mpr ⟨(k, vs), hc, ?_⟩)
    rw [hv]
    rfl
  | none =>
    rw [lookup_eq_none]
    intro hk
    obtain ⟨f, hf, rfl⟩ := List.mem_map.mp hk
    obtain ⟨c, hc', hf⟩ := List.mem_filterMap.mp hf
    obtain ⟨v, hv', rfl⟩ := Option.map_eq_some_iff.mp hf
    have hcolumn : c.2 = vs := Option.some.inj ((lookup_of_mem h hc').symm.trans (lookup_of_mem h hc))
    rw [hcolumn, hv] at hv'
    cases hv'

/-- Where names are different, reading one out of all records gives its column, with absence behind its end. -/
theorem map_lookup_zip (h : cs.keys.Nodup) (hc : (k, vs) ∈ cs) :
    cs.zip.map (fun r => (r.lookup k).getD .null) = vs ++ List.replicate (cs.zip.length - vs.length) .null := by
  have hle : vs.length ≤ cs.height := length_le_height hc
  rw [length_zip]
  refine List.ext_getElem? fun i => ?_
  rw [List.getElem?_map, getElem?_zip, List.getElem?_append, List.getElem?_replicate]
  by_cases hi : i < vs.length
  · rw [if_pos (by omega), if_pos hi, Option.map_some, lookup_recordAt_of_mem h hc, cell?,
      List.getElem?_eq_getElem hi]
    cases vs[i] <;> rfl
  · rw [if_neg hi]
    by_cases hheight : i < cs.height
    · rw [if_pos hheight, if_pos (by omega), Option.map_some, lookup_recordAt_of_mem h hc,
        cell?_of_length_le (by omega), Option.getD_none]
    · rw [if_neg hheight, if_neg (by omega), Option.map_none]

/-- There are as many records as the longest column has entries, and none without columns. A record has a name just
where some column of that name holds something at its position; it has the value of the last such column, and its names
stand in the order of the first ones. So where names are different, a name read out of all records is its column, with
absence behind the end. -/
theorem zip_law (cs : Columns) :
    (cs = [] ∧ cs.zip = [] ∨ ∃ c ∈ cs, c.2.length = cs.zip.length ∧ ∀ d ∈ cs, d.2.length ≤ cs.zip.length) ∧
      (∀ i r, cs.zip[i]? = some r →
        (∀ a, a ∈ r.keys ↔ ∃ c ∈ cs, c.1 = a ∧ ∃ v, c.2[i]? = some v ∧ v ≠ .null) ∧
          (∀ a, r.lookup a = (cs.row i).reverse.lookup a) ∧ r.keys = (cs.row i).keys.eraseDups) ∧
      (cs.keys.Nodup → ∀ c ∈ cs, cs.zip.map (fun r => (r.lookup c.1).getD .null)
        = c.2 ++ List.replicate (cs.zip.length - c.2.length) .null) := by
  refine ⟨?_, ?_, ?_⟩
  · rw [length_zip]
    by_cases h : cs = []
    · subst h
      exact .inl ⟨rfl, rfl⟩
    · obtain ⟨c, hc, hlength⟩ := exists_length_eq_height h
      exact .inr ⟨c, hc, hlength, fun d hd => length_le_height hd⟩
  · intro i r hr
    rw [getElem?_zip] at hr
    split at hr
    · cases hr
      exact ⟨fun a => mem_keys_recordAt, lookup_recordAt cs i, keys_recordAt_eq cs i⟩
    · cases hr
  · intro h c hc
    exact map_lookup_zip h hc

/-- Two columns of one name, absent values, and columns of different lengths. -/
def ragged : Columns :=
  [("b", [.text "1", .null]), ("a", [.text "2", .text "", .null]), ("b", [.text "4", .int 0])]

theorem zip_law_sample :
    ragged.zip[0]? = some [("b", .text "4"), ("a", .text "2")] ∧
      List.lookup "b" [("b", .text "4"), ("a", .text "2")] = (ragged.row 0).reverse.lookup "b" ∧
      Record.keys [("b", .text "4"), ("a", .text "2")] = (ragged.row 0).keys.eraseDups ∧
      (Columns.keys ragged.tail).Nodup ∧ ("b", [.text "4", .int 0]) ∈ ragged.tail ∧
      (zip ragged.tail).map (fun r => (r.lookup "b").getD .null) = [.text "4", .int 0, .null] := by
  have hr : ragged.zip[0]? = some [("b", .text "4"), ("a", .text "2")] := rfl
  have hnames : (Columns.keys ragged.tail).Nodup := by decide
  have hmem : ("b", [.text "4", .int 0]) ∈ ragged.tail := .tail _ (.head _)
  obtain ⟨-, hlookup, hkeys⟩ := (zip_law ragged).2.1 0 _ hr
  exact ⟨hr, hlookup "b", hkeys, hnames, hmem, (zip_law ragged.tail).2.2 hnames _ hmem⟩

end Columns
end Harvest
