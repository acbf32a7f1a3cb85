import Harvest.Proofs.Formed

/-
  Looking entries of a mapping up, and putting them there.

  A key that is a text is one key with itself only, so what stands under it is not touched by what is put under other keys
  (`find?_put_of_ne`). Keys that are different stay so when an entry is put (`distinct_put`), hence the mappings that
  readers build entry by entry have different keys (`distinct_putAll`).
-/
namespace Harvest.Value

/-- Whether the keys of entries are different. -/
def Distinct (es : Entries) : Prop := es.Pairwise fun d e => sameKey d.1 e.1 = false

theorem eq_text_of_sameKey {v : Value} {k : String} (h : sameKey (.text k) v = true) : v = .text k := by
  cases v with
  | text s =>
    have hks : k = s := by simpa [sameKey] using h
    rw [hks]
  | _ => simp [sameKey] at h

variable {k : String} {l v w : Value} {es more : Entries}

/-! ## Looking up -/

theorem find?_cons_self (k : String) (v : Value) (es : Entries) : find? (.text k) ((.text k, v) :: es) = some v := by
  rw [find?, if_pos (sameKey_text.mpr rfl)]

theorem find?_cons_of_ne (h : l ≠ .text k) (v : Value) (es : Entries) :
    find? (.text k) ((l, v) :: es) = find? (.text k) es := by
  rw [find?, if_neg (fun hl => h (sameKey_text.mp hl))]

theorem mem_of_find? (h : find? (.text k) es = some v) : (.text k, v) ∈ es := by
  induction es with
  | nil => cases h
  | cons e es ih =>
    obtain ⟨l, w⟩ := e
    by_cases hl : l = .text k
    · subst hl
      rw [find?_cons_self] at h
      cases h
      exact List.mem_cons_self
    · rw [find?_cons_of_ne hl] at h
      exact List.mem_cons_of_mem _ (ih h)

theorem find?_eq_none : find? (.text k) es = none ↔ ∀ e ∈ es, e.1 ≠ .text k := by
  induction es with
  | nil => simp [find?]
  | cons e es ih =>
    obtain ⟨l, w⟩ := e
    rw [List.forall_mem_cons]
    by_cases hl : l = .text k
    · subst hl
      simp [find?_cons_self]
    · rw [find?_cons_of_ne hl, ih]
      exact ⟨fun h => ⟨hl, h⟩, fun h => h.2⟩

/-- Behind a key that is different from the others nothing else is found under it. -/
theorem find?_eq_none_of_distinct (h : Distinct ((.text k, v) :: es)) : find? (.text k) es = none := by
  rw [find?_eq_none]
  rintro ⟨l, w⟩ he rfl
  have hsame := (List.pairwise_cons.mp h).1 _ he
  simp at hsame

/-- Among different keys, an entry is found under its own. -/
theorem find?_of_mem (hes : Distinct es) (h : (.text k, v) ∈ es) : find? (.text k) es = some v := by
  induction es with
  | nil => cases h
  | cons e es ih =>
    obtain ⟨l, w⟩ := e
    have htail : Distinct es := (List.pairwise_cons.mp hes).2
    rcases List.mem_cons.mp h with heq | hmem
    · cases heq
      exact find?_cons_self k v es
    · have hl : l ≠ .text k := by
        rintro rfl
        have hnone := find?_eq_none.mp (find?_eq_none_of_distinct hes) _ hmem
        exact hnone rfl
      rw [find?_cons_of_ne hl, ih htail hmem]

/-- Among different keys, what is kept is found as before. -/
theorem find?_filter (hes : Distinct es) (p : Value × Value → Bool) :
    find? (.text k) (es.filter p) = (find? (.text k) es).filter fun v => p (.text k, v) := by
  have hsub : (es.filter p).Sublist es := List.filter_sublist
  cases h : find? (.text k) es with
  | none =>
    rw [find?_eq_none] at h
    rw [Option.filter_none, find?_eq_none]
    exact fun e he => h e (hsub.subset he)
  | some v =>
    have hmem := mem_of_find? h
    by_cases hp : p (.text k, v) = true
    · rw [Option.filter_some, if_pos hp]
      exact find?_of_mem (hes.sublist hsub) (List.mem_filter.mpr ⟨hmem, hp⟩)
    · rw [Option.filter_some, if_neg hp, find?_eq_none]
      -- whatever is kept under the key is the entry itself
      rintro ⟨l, w⟩ he rfl
      obtain ⟨hw, hkept⟩ := List.mem_filter.mp he
      have hfound := find?_of_mem hes hw
      rw [h, Option.some.injEq] at hfound
      subst hfound
      exact hp hkept

/-! ## Putting -/

theorem find?_put_self (k : String) (v : Value) (es : Entries) : find? (.text k) (put (.text k) v es) = some v := by
  induction es with
  | nil => exact find?_cons_self k v []
  | cons e es ih =>
    obtain ⟨m, w⟩ := e
    rw [put]
    by_cases hm : m = .text k
    · subst hm
      rw [if_pos (sameKey_text.mpr rfl), find?_cons_self]
    · rw [if_neg (fun h => hm (sameKey_text.mp h)), find?_cons_of_ne hm, ih]

theorem find?_put_of_ne (h : l ≠ .text k) (v : Value) (es : Entries) :
    find? (.text k) (put l v es) = find? (.text k) es := by
  induction es with
  | nil => exact find?_cons_of_ne h v []
  | cons e es ih =>
    obtain ⟨m, w⟩ := e
    rw [put]
    by_cases hm : sameKey m l = true
    · -- the key whose value is replaced is another as well
      have hmk : m ≠ .text k := by
        rintro rfl
        exact h (eq_text_of_sameKey hm)
      rw [if_pos hm, find?_cons_of_ne hmk, find?_cons_of_ne hmk]
    · rw [if_neg hm]
      by_cases hmk : m = .text k
      · subst hmk
        rw [find?_cons_self, find?_cons_self]
      · rw [find?_cons_of_ne hmk, find?_cons_of_ne hmk, ih]

theorem find?_put (j k : String) (v : Value) (es : Entries) :
    find? (.text k) (put (.text j) v es) = if j = k then some v else find? (.text k) es := by
  by_cases h : j = k
  · rw [if_pos h, h, find?_put_self]
  · rw [if_neg h, find?_put_of_ne (by simpa using h)]

/-- A key that is not there yet is put at the end. -/
theorem put_of_forall_ne (h : ∀ e ∈ es, e.1 ≠ .text k) (v : Value) : put (.text k) v es = es ++ [(.text k, v)] := by
  induction es with
  | nil => rfl
  | cons e es ih =>
    obtain ⟨hhead, htail⟩ := List.forall_mem_cons.mp h
    rw [put, if_neg (fun hl => hhead (sameKey_text.mp hl)), ih htail, List.cons_append]

/-- What stands in a mapping after an entry is put was put or stood there before, and so did its key. -/
theorem mem_put {e : Value × Value} (h : e ∈ put l v es) :
    (e.1 = l ∨ ∃ d ∈ es, d.1 = e.1) ∧ (e.2 = v ∨ ∃ d ∈ es, d.2 = e.2) := by
  induction es with
  | nil =>
    obtain rfl := List.mem_singleton.mp h
    exact ⟨.inl rfl, .inl rfl⟩
  | cons c es ih =>
    obtain ⟨m, w⟩ := c
    rw [put] at h
    split at h
    · rcases List.mem_cons.mp h with rfl | h
      · exact ⟨.inr ⟨(m, w), List.mem_cons_self, rfl⟩, .inl rfl⟩
      · exact ⟨.inr ⟨e, List.mem_cons_of_mem _ h, rfl⟩, .inr ⟨e, List.mem_cons_of_mem _ h, rfl⟩⟩
    · rcases List.mem_cons.mp h with rfl | h
      · exact ⟨.inr ⟨(m, w), List.mem_cons_self, rfl⟩, .inr ⟨(m, w), List.mem_cons_self, rfl⟩⟩
      · obtain ⟨hkey, hvalue⟩ := ih h
        refine ⟨hkey.imp_right ?_, hvalue.imp_right ?_⟩
        · rintro ⟨d, hd, hde⟩
          exact ⟨d, List.mem_cons_of_mem _ hd, hde⟩
        · rintro ⟨d, hd, hde⟩
          exact ⟨d, List.mem_cons_of_mem _ hd, hde⟩

theorem distinct_put (hes : Distinct es) (l v : Value) : Distinct (put l v es) := by
  induction es with
  | nil => exact List.pairwise_singleton _ _
  | cons e es ih =>
    obtain ⟨m, w⟩ := e
    obtain ⟨hhead, htail⟩ := List.pairwise_cons.mp hes
    rw [put]
    split
    · exact List.pairwise_cons.mpr ⟨hhead, htail⟩
    · next hm =>
      refine List.pairwise_cons.mpr ⟨?_, ih htail⟩
      intro e he
      rcases (mem_put he).1 with hl | ⟨d, hd, hde⟩
      · rw [hl]
        simpa using hm
      · have hdm : sameKey m d.1 = false := hhead d hd
        rwa [hde] at hdm

theorem distinct_putAll (hes : Distinct es) (more : Entries) : Distinct (putAll es more) := by
  induction more generalizing es with
  | nil => exact hes
  | cons e more ih => exact ih (distinct_put hes e.1 e.2)

/-- What stands in a mapping after entries are put was put or stood there before. -/
theorem mem_putAll {e : Value × Value} (h : e ∈ putAll es more) : ∃ d ∈ es ++ more, d.2 = e.2 := by
  induction more generalizing es with
  | nil =>
    refine ⟨e, ?_, rfl⟩
    rw [List.append_nil]
    exact h
  | cons c more ih =>
    obtain ⟨d, hd, hde⟩ := ih h
    rcases List.mem_append.mp hd with hd | hd
    · rcases (mem_put hd).2 with hv | ⟨b, hb, hbd⟩
      · exact ⟨c, by simp, hv.symm.trans hde⟩
      · exact ⟨b, by simp [hb], hbd.trans hde⟩
    · exact ⟨d, by simp [hd], hde⟩

/-! ## Formed mappings -/

theorem Formed.distinct (h : Formed (.map es)) : Distinct es := by
  cases h with
  | map distinct members => exact distinct

theorem Formed.members (h : Formed (.map es)) : ∀ e ∈ es, Formed e.2 := by
  cases h with
  | map distinct members => exact members

theorem Formed.find? (h : Formed (.map es)) (hv : find? (.text k) es = some v) : v.Formed :=
  h.members _ (mem_of_find? hv)

theorem Formed.put (h : Formed (.map es)) (l : Value) (hv : v.Formed) : Formed (.map (put l v es)) := by
  refine .map (distinct_put h.distinct l v) ?_
  intro e he
  rcases (mem_put he).2 with hev | ⟨d, hd, hde⟩
  · rw [hev]
    exact hv
  · rw [← hde]
    exact h.members d hd

theorem Formed.putAll (h : ∀ e ∈ more, e.2.Formed) : Formed (.map (putAll [] more)) := by
  refine .map (distinct_putAll List.Pairwise.nil more) ?_
  intro e he
  obtain ⟨d, hd, hde⟩ := mem_putAll he
  rw [← hde]
  exact h d (by simpa using hd)

/-- A record with different names is formed when what it holds is. -/
theorem Formed.record {r : Record} (hr : (r.map (·.1)).Nodup) (h : ∀ e ∈ r, e.2.Formed) : (ofRecord r).Formed := by
  refine .map ?_ ?_
  · rw [List.pairwise_map]
    have hne : r.Pairwise fun d e => d.1 ≠ e.1 := List.pairwise_map.mp hr
    refine hne.imp ?_
    intro d e hde
    simpa using hde
  · intro e he
    obtain ⟨d, hd, rfl⟩ := List.mem_map.mp he
    exact h d hd

/-! ## Records -/

/-- A record as entries. -/
def entriesOf (r : Record) : Entries := r.map fun (k, v) => (.text k, v)

theorem find?_entriesOf (k : String) (r : Record) : find? (.text k) (entriesOf r) = r.lookup k := by
  induction r with
  | nil => rfl
  | cons f r ih =>
    obtain ⟨j, v⟩ := f
    have hcons : entriesOf ((j, v) :: r) = (.text j, v) :: entriesOf r := rfl
    rw [hcons, List.lookup_cons]
    by_cases h : k = j
    · rw [h, find?_cons_self, beq_self_eq_true]
    · have hkey : Value.text j ≠ .text k := by simpa using Ne.symm h
      rw [find?_cons_of_ne hkey, ih, beq_false_of_ne h]

/-- A name that no field has is put behind the fields. -/
theorem put_entriesOf {r : Record} (h : k ∉ r.map (·.1)) (v : Value) :
    put (.text k) v (entriesOf r) = entriesOf (r ++ [(k, v)]) := by
  have hne : ∀ e ∈ entriesOf r, e.1 ≠ .text k := by
    intro e he
    obtain ⟨f, hf, rfl⟩ := List.mem_map.mp he
    intro hk
    cases hk
    exact h (List.mem_map_of_mem hf)
  rw [put_of_forall_ne hne]
  simp [entriesOf]

end Harvest.Value
