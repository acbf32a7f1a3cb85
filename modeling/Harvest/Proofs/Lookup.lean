import Mathlib.Data.List.Nodup

/-
  Lists of things under names.

  Under a name stands the first thing that has it; where names are different, that is any thing that has it.
-/
namespace Harvest
variable {β : Type} {n k : String} {v : β} {es : List (String × β)}

theorem lookup_isSome : (es.lookup n).isSome = true ↔ n ∈ es.map (·.1) := by
  rw [List.lookup_isSome_iff, List.mem_map]
  constructor
  · rintro ⟨e, he, hn⟩
    exact ⟨e, he, (beq_iff_eq.mp hn).symm⟩
  · rintro ⟨e, he, rfl⟩
    exact ⟨e, he, beq_self_eq_true _⟩

theorem lookup_eq_none : es.lookup n = none ↔ n ∉ es.map (·.1) := by
  rw [← lookup_isSome, Option.not_isSome_iff_eq_none]

theorem lookup_cons_of_ne (h : n ≠ k) (v : β) (es : List (String × β)) : ((k, v) :: es).lookup n = es.lookup n := by
  rw [List.lookup_cons, beq_false_of_ne h]

/-- Where names are different, each thing is found under its name. -/
theorem lookup_of_mem (hes : (es.map (·.1)).Nodup) (h : (n, v) ∈ es) : es.lookup n = some v := by
  induction es with
  | nil => cases h
  | cons e es ih =>
    obtain ⟨m, w⟩ := e
    rw [List.map_cons, List.nodup_cons] at hes
    rcases List.mem_cons.mp h with heq | hmem
    · cases heq
      exact List.lookup_cons_self
    · have hne : n ≠ m := by
        rintro rfl
        exact hes.1 (List.mem_map.mpr ⟨(n, v), hmem, rfl⟩)
      rw [lookup_cons_of_ne hne, ih hes.2 hmem]

/-- A thing behind others counts where none of these has its name. -/
theorem lookup_concat (es : List (String × β)) (k : String) (v : β) (n : String) :
    (es ++ [(k, v)]).lookup n = (es.lookup n).or (if n = k then some v else none) := by
  rw [List.lookup_append]
  by_cases h : n = k
  · rw [h, List.lookup_cons_self, if_pos rfl]
  · rw [lookup_cons_of_ne h, if_neg h, List.lookup_nil]

theorem nodup_concat (hes : (es.map (·.1)).Nodup) (hk : k ∉ es.map (·.1)) (v : β) :
    ((es ++ [(k, v)]).map (·.1)).Nodup := by
  rw [List.map_append, List.nodup_append]
  refine ⟨hes, List.nodup_singleton k, ?_⟩
  rintro a ha b hb rfl
  obtain rfl := List.mem_singleton.mp hb
  exact hk ha

end Harvest
