import Harvest.Extract
import Harvest.Proofs.Lookup

/-
  Records made field by field, and records made of columns.

  Both ways put a field in front of a record unless its value is absent (`consField`): `withField_eq` says so of the
  fields of a mapping, `recordAt_cons` of columns that have names of their own. So a record has its names in the order
  of the fields or columns (`keys_consField`), and under each name what the field or column gave
  (`lookup_consField_self`, `lookup_consField_of_ne`). With columns, record `i` takes what stands at `i`, and there are
  as many records as the longest column has places (`getElem?_zip`).
-/
namespace Harvest

namespace Value

/-- A value, unless it is absence. -/
def present? (v : Value) : Option Value := if v.isNull then none else some v

theorem present?_of_ne {v : Value} (h : v ≠ .null) : v.present? = some v := by
  cases v with
  | null => exact absurd rfl h
  | _ => rfl

theorem present?_eq_some {v w : Value} : v.present? = some w ↔ v = w ∧ w ≠ .null := by
  cases v <;> cases w <;> simp [present?, isNull]

/-- The names of a record. -/
def Record.keys (r : Record) : List String := r.map (·.1)

/-- A field in front of a record, if it has a value. -/
def consField (k : String) (v? : Option Value) (r : Record) : Record :=
  match v? with
  | none => r
  | some v => (k, v) :: r

variable {k : String} {v? : Option Value} {r : Record}

theorem withField_eq (k : String) (v : Value) (r : Record) : withField k v r = consField k v.present? r := by
  cases v <;> rfl

theorem keys_consField {names : List String} (h : r.keys.Sublist names) :
    (consField k v? r).keys.Sublist (k :: names) := by
  cases v? with
  | none => exact h.cons k
  | some v => exact h.cons_cons k

theorem lookup_consField_self (h : k ∉ r.keys) : (consField k v? r).lookup k = v? := by
  cases v? with
  | none => exact lookup_eq_none.mpr h
  | some v => exact List.lookup_cons_self

theorem lookup_consField_of_ne {j : String} (h : j ≠ k) : (consField k v? r).lookup j = r.lookup j := by
  cases v? with
  | none => rfl
  | some v => rw [consField, List.lookup_cons, beq_false_of_ne h]

theorem consField_eq_nil : consField k v? r = [] ↔ v? = none ∧ r = [] := by
  cases v? <;> simp [consField]

theorem putField_of_not_mem (v : Value) (h : k ∉ r.keys) : putField k v r = r ++ [(k, v)] := by
  induction r with
  | nil => rfl
  | cons f r ih =>
    simp only [Record.keys, List.map_cons, List.mem_cons, not_or] at h
    rw [putField, if_neg (by simpa using Ne.symm h.1), ih h.2, List.cons_append]

/-- A value that is neither absent nor a record without fields. -/
theorem ne_of_isBlank {w : Value} (h : w.isBlank = false) : w ≠ .null ∧ w ≠ .ofRecord [] := by
  constructor
  · rintro rfl
    cases h
  · rintro rfl
    cases h

end Value

/-! ## Columns -/

/-- What a column holds at a position, absence counting as nothing. -/
def cell? (column : List Value) (i : Nat) : Option Value := column[i]?.bind Value.present?

theorem mem_of_cell? {ws : List Value} {i : Nat} {w : Value} (h : cell? ws i = some w) : w ∈ ws ∧ w ≠ .null := by
  obtain ⟨v, hv, h⟩ := Option.bind_eq_some_iff.mp h
  obtain ⟨rfl, hw⟩ := Value.present?_eq_some.mp h
  exact ⟨List.mem_of_getElem? hv, hw⟩

/-- What is left of values when records without fields count as absent. -/
theorem mem_of_mem_map_blankToNull {ws : List Value} {w : Value} (h : w ∈ ws.map blankToNull) (hw : w ≠ .null) :
    w ∈ ws ∧ w ≠ .ofRecord [] := by
  obtain ⟨v, hv, rfl⟩ := List.mem_map.mp h
  unfold blankToNull at hw ⊢
  split at hw
  · exact absurd rfl hw
  · next hb =>
    rw [if_neg hb]
    exact ⟨hv, (Value.ne_of_isBlank (by simpa using hb)).2⟩

theorem cell?_of_length_le {vs : List Value} {i : Nat} (h : vs.length ≤ i) : cell? vs i = none := by
  simp [cell?, List.getElem?_eq_none h]

namespace Columns
open Value

variable {cs : Columns} {k : String} {vs : List Value} {i : Nat}

/-- The names of columns. -/
def keys (cs : Columns) : List String := cs.map (·.1)

theorem keys_cons (k : String) (vs : List Value) (cs : Columns) : keys ((k, vs) :: cs) = k :: cs.keys := rfl

theorem putAt_eq (i : Nat) (r : Record) (k : String) (vs : List Value) :
    putAt i r (k, vs) =
      match cell? vs i with
      | none => r
      | some v => putField k v r := by
  simp only [putAt, cell?]
  cases vs[i]? with
  | none => rfl
  | some v => cases v <;> rfl

/-- Columns with names of their own put their values behind a record without these names. -/
theorem foldl_putAt (h : cs.keys.Nodup) (r : Record) (hr : ∀ k ∈ cs.keys, k ∉ r.keys) :
    cs.foldl (putAt i) r = r ++ cs.filterMap fun c => (cell? c.2 i).map (c.1, ·) := by
  induction cs generalizing r with
  | nil => simp
  | cons c cs ih =>
    obtain ⟨k, vs⟩ := c
    obtain ⟨hk, hcs⟩ := List.nodup_cons.mp h
    rw [List.foldl_cons, putAt_eq, List.filterMap_cons]
    cases cell? vs i with
    | none => exact ih hcs r fun j hj => hr j (List.mem_cons_of_mem _ hj)
    | some v =>
      -- the record has none of the names to come, so the value goes to its end
      simp only [putField_of_not_mem v (hr k List.mem_cons_self), Option.map_some]
      rw [ih hcs, List.append_assoc, List.singleton_append]
      intro j hj
      have hjk : j ≠ k := fun he => hk (he ▸ hj)
      have hjr := hr j (List.mem_cons_of_mem _ hj)
      simpa [Record.keys, hjk] using hjr

/-- A record of columns with names of their own takes the value of each, in order. -/
theorem recordAt_eq (h : cs.keys.Nodup) (i : Nat) :
    cs.recordAt i = cs.filterMap fun c => (cell? c.2 i).map (c.1, ·) :=
  foldl_putAt h [] fun _ _ => List.not_mem_nil

theorem recordAt_cons (h : (Columns.keys ((k, vs) :: cs)).Nodup) (i : Nat) :
    recordAt ((k, vs) :: cs) i = consField k (cell? vs i) (recordAt cs i) := by
  rw [recordAt_eq h, recordAt_eq (List.nodup_cons.mp h).2, List.filterMap_cons]
  cases cell? vs i <;> rfl

/-- A record of columns has some of their names, in order. -/
theorem keys_recordAt (h : cs.keys.Nodup) (i : Nat) : (cs.recordAt i).keys.Sublist cs.keys := by
  induction cs with
  | nil => exact .slnil
  | cons c cs ih =>
    rw [recordAt_cons h]
    exact keys_consField (ih (List.nodup_cons.mp h).2)

/-- What a record of columns holds stands in one of them. -/
theorem exists_of_mem_recordAt (h : cs.keys.Nodup) {f : String × Value} (hf : f ∈ cs.recordAt i) :
    ∃ c ∈ cs, f.2 ∈ c.2 := by
  rw [recordAt_eq h] at hf
  obtain ⟨c, hc, hf⟩ := List.mem_filterMap.mp hf
  obtain ⟨v, hv, rfl⟩ := Option.map_eq_some_iff.mp hf
  exact ⟨c, hc, (mem_of_cell? hv).1⟩

/-- Behind the end of all columns nothing is put. -/
theorem foldl_putAt_of_height_le (h : cs.height ≤ i) (r : Record) : cs.foldl (putAt i) r = r := by
  induction cs generalizing r with
  | nil => rfl
  | cons c cs ih =>
    obtain ⟨k, vs⟩ := c
    simp only [height] at h
    have hle : vs.length ≤ i ∧ height cs ≤ i := by omega
    rw [List.foldl_cons, putAt_eq, cell?_of_length_le hle.1]
    exact ih hle.2 r

theorem recordAt_of_height_le (h : cs.height ≤ i) : cs.recordAt i = [] := foldl_putAt_of_height_le h []

theorem length_zip (cs : Columns) : cs.zip.length = cs.height := by simp [zip]

/-- There is a record for each place of the longest column. -/
theorem getElem?_zip (cs : Columns) (i : Nat) :
    cs.zip[i]? = if i < cs.height then some (cs.recordAt i) else none := by
  by_cases h : i < cs.height
  · simp [zip, h]
  · simp [zip, h]

/-- A single column has a record for each of its values. -/
theorem zip_single (k : String) (vs : List Value) : zip [(k, vs)] = vs.map fun v => consField k v.present? [] := by
  have hkeys : (keys [(k, vs)]).Nodup := List.nodup_singleton k
  refine List.ext_getElem? fun i => ?_
  rw [getElem?_zip, recordAt_cons hkeys, List.getElem?_map]
  by_cases h : i < vs.length
  · simp [height, recordAt, cell?, h]
  · simp [height, h]

end Columns
end Harvest
