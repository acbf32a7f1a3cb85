import Harvest.Query.Reader
import Harvest.Proofs.Fallible

/-
  What a query that was read holds, and memos of such queries.

  A query that was read keeps its expression, and its steps stand for filters of the dialect (`Dialect.read_form`).
  So a memo, which finds queries by their expressions, finds what reading would give, as long as each query in it was
  read (`Memo.Sound`). Asking finds, or reads, or fails (`Dialect.ask_cases`), and keeps it so (`ask_sound`). What a memo
  holds after a row of questions are the expressions among them that can be read (`Dialect.holds_askAll`).
-/
namespace Harvest

/-! ## Reading -/

theorem Dialect.assemble_form {d : Dialect} {e : String} {groups pieces : List (Option (List Char))} {q : Query}
    {events : List Event} (h : d.assemble e groups pieces = .ok (q, events)) :
    q.expression = e ∧ ∃ is, q.steps = d.filters.bind is := by
  unfold Dialect.assemble at h
  split at h
  · obtain ⟨is, -, h⟩ := bind_eq_ok.mp h
    cases h
    exact ⟨rfl, is, rfl⟩
  · cases h

/-- A query keeps the expression it was read from, and its steps are bound invocations. -/
theorem Dialect.read_form {d : Dialect} {e : String} {q : Query} {events : List Event}
    (h : d.read e = .ok (q, events)) : q.expression = e ∧ ∃ is, q.steps = d.filters.bind is := by
  unfold Dialect.read at h
  split at h
  · split at h
    · cases h
      exact ⟨rfl, [], rfl⟩
    · exact assemble_form h
  · cases h

theorem Registry.mem_of_find? {r : Registry} {n : String} {f : Filter} (h : r.find? n = some f) : (n, f) ∈ r := by
  obtain ⟨front, back, rfl, -⟩ := List.lookup_eq_some_iff.mp h
  simp

/-- Each bound step stands for a filter of the registry. -/
theorem Registry.mem_of_bind {r : Registry} {is : List Invocation} {s : Step} (h : s ∈ r.bind is) :
    ∃ n, (n, s.filter) ∈ r := by
  obtain ⟨i, -, hi⟩ := List.mem_filterMap.mp h
  obtain ⟨f, hf, rfl⟩ := Option.map_eq_some_iff.mp hi
  exact ⟨i.name, mem_of_find? hf⟩

/-! ## Memos -/

/-- Each query of a memo is what its expression reads as. -/
def Memo.Sound (d : Dialect) (m : Memo) : Prop := ∀ q ∈ m, ∃ events, d.read q.expression = .ok (q, events)

theorem Memo.sound_nil (d : Dialect) : Memo.Sound d [] := by simp [Memo.Sound]

/-- What is found is the first query of the expression. -/
theorem Memo.find?_eq_some_iff {m : Memo} {e : String} {i : Nat} {q : Query} :
    m.find? e = some (i, q) ↔
      ∃ front back, m = front ++ q :: back ∧ front.length = i ∧ q.expression = e ∧ ∀ p ∈ front, p.expression ≠ e := by
  constructor
  · intro h
    unfold Memo.find? at h
    cases hi : m.findIdx? (·.expression == e) with
    | none => simp [hi] at h
    | some j =>
      obtain ⟨hj, hq, hfront⟩ := List.findIdx?_eq_some_iff_getElem.mp hi
      simp only [hi, List.getElem?_eq_getElem hj, Option.map_some, Option.some.injEq, Prod.mk.injEq] at h
      obtain ⟨rfl, rfl⟩ := h
      refine ⟨m.take j, m.drop (j + 1), by simp, by simp [Nat.le_of_lt hj], by simpa using hq, ?_⟩
      intro p hp he
      obtain ⟨k, hk, rfl⟩ := List.mem_take_iff_getElem.mp hp
      exact hfront k (by omega) (by simpa using he)
  · rintro ⟨front, back, rfl, rfl, he, hfront⟩
    have hnone : List.findIdx? (fun p : Query => p.expression == e) front = none := by
      rw [List.findIdx?_eq_none_iff]
      exact fun p hp => beq_false_of_ne (hfront p hp)
    simp [Memo.find?, List.findIdx?_append, List.findIdx?_cons, hnone, he]

theorem Memo.expression_of_find? {m : Memo} {e : String} {i : Nat} {q : Query} (h : m.find? e = some (i, q)) :
    q ∈ m ∧ q.expression = e := by
  obtain ⟨front, back, rfl, -, he, -⟩ := Memo.find?_eq_some_iff.mp h
  exact ⟨by simp, he⟩

/-- All that asking can do: a query is found, or it is read and put at the end, or it cannot be read. -/
theorem Dialect.ask_cases (d : Dialect) (m : Memo) (e : String) :
    (∃ i q, m.find? e = some (i, q) ∧ d.ask m e = (.ok ⟨i, q, []⟩, m)) ∨
      (∃ q events, m.find? e = none ∧ d.read e = .ok (q, events) ∧ d.ask m e = (.ok ⟨m.length, q, events⟩, m ++ [q])) ∨
      ∃ f, m.find? e = none ∧ d.read e = .error f ∧ d.ask m e = (.error f, m) := by
  unfold ask
  cases hf : m.find? e with
  | some r => exact .inl ⟨r.1, r.2, rfl, rfl⟩
  | none =>
    cases hr : d.read e with
    | ok a => exact .inr (.inl ⟨a.1, a.2, rfl, rfl, rfl⟩)
    | error f => exact .inr (.inr ⟨f, rfl, rfl, rfl⟩)

namespace Memo.Sound
variable {d : Dialect} {m : Memo} {e : String} {q : Query} {events : List Event}

theorem append (hm : m.Sound d) (h : d.read e = .ok (q, events)) : Memo.Sound d (m ++ [q]) := by
  intro p hp
  rcases List.mem_append.mp hp with hp | hp
  · exact hm p hp
  · obtain rfl := List.mem_singleton.mp hp
    exact ⟨events, by rw [(Dialect.read_form h).1]; exact h⟩

/-- What a sound memo finds is what reading gives. -/
theorem read_of_find? {i : Nat} (hm : m.Sound d) (h : m.find? e = some (i, q)) :
    ∃ events, d.read e = .ok (q, events) := by
  obtain ⟨hq, rfl⟩ := expression_of_find? h
  exact hm q hq

/-- Asking with a sound memo leaves a sound memo. -/
theorem ask_sound (hm : m.Sound d) (e : String) : (d.ask m e).2.Sound d := by
  obtain ⟨i, q, -, hask⟩ | ⟨q, events, -, hread, hask⟩ | ⟨f, -, -, hask⟩ := d.ask_cases m e
  · rwa [hask]
  · rw [hask]
    exact hm.append hread
  · rwa [hask]

/-- Asking with a sound memo gives the query, or the fault, that reading gives. -/
theorem ask_query (hm : m.Sound d) (e : String) : (d.ask m e).1.map (·.query) = (d.read e).map (·.1) := by
  obtain ⟨i, q, hfind, hask⟩ | ⟨q, events, -, hread, hask⟩ | ⟨f, -, hread, hask⟩ := d.ask_cases m e
  · obtain ⟨events, hread⟩ := hm.read_of_find? hfind
    rw [hask, hread]
    rfl
  · rw [hask, hread]
    rfl
  · rw [hask, hread]
    rfl

end Memo.Sound

/-- The memo after expressions were asked for, one after the other. -/
def Dialect.askAll (d : Dialect) (es : List String) : Memo := es.foldl (fun m e => (d.ask m e).2) []

/-- Whether an expression is found in a memo. -/
def Memo.Holds (m : Memo) (e : String) : Prop := ∃ q ∈ m, q.expression = e

theorem Memo.find?_eq_none {m : Memo} {e : String} : m.find? e = none ↔ ¬m.Holds e := by
  unfold Memo.find?
  cases hi : m.findIdx? (·.expression == e) with
  | none =>
    have hnone := List.findIdx?_eq_none_iff.mp hi
    simpa [Memo.Holds] using hnone
  | some j =>
    obtain ⟨hj, hq, _⟩ := List.findIdx?_eq_some_iff_getElem.mp hi
    have hholds : m.Holds e := ⟨m[j], List.getElem_mem hj, by simpa using hq⟩
    simp [List.getElem?_eq_getElem hj, hholds]

/-- Asking for an expression that can be read puts it into the memo, and nothing else. -/
theorem Memo.holds_ask {d : Dialect} {m : Memo} {e e' : String} :
    (d.ask m e').2.Holds e ↔ m.Holds e ∨ e = e' ∧ ∃ a, d.read e = .ok a := by
  obtain ⟨i, q, hfind, hask⟩ | ⟨q, events, -, hread, hask⟩ | ⟨f, -, hread, hask⟩ := d.ask_cases m e'
  · obtain ⟨hq, he⟩ := Memo.expression_of_find? hfind
    have hthere : e = e' → m.Holds e := fun h => ⟨q, hq, he.trans h.symm⟩
    simp only [hask]
    tauto
  · have hnew : q.expression = e' := (Dialect.read_form hread).1
    simp only [hask, Memo.Holds, List.mem_append, List.mem_singleton, or_and_right, exists_or, exists_eq_left, hnew]
    refine or_congr_right ⟨?_, fun h => h.1.symm⟩
    rintro rfl
    exact ⟨rfl, _, hread⟩
  · have hunread : ¬(e = e' ∧ ∃ a, d.read e = .ok a) := by
      rintro ⟨rfl, a, ha⟩
      simp [hread] at ha
    simp only [hask]
    tauto

/-- After expressions were asked for, the memo holds those of them that can be read. -/
theorem Dialect.holds_askAll {d : Dialect} {es : List String} {e : String} :
    (d.askAll es).Holds e ↔ e ∈ es ∧ ∃ a, d.read e = .ok a := by
  have hfold : ∀ (es : List String) (m : Memo),
      Memo.Holds (es.foldl (fun m e => (d.ask m e).2) m) e ↔ m.Holds e ∨ e ∈ es ∧ ∃ a, d.read e = .ok a := by
    intro es
    induction es with
    | nil => simp
    | cons e' es ih =>
      intro m
      rw [List.foldl_cons, ih, Memo.holds_ask, List.mem_cons]
      tauto
  have hnil : ¬Memo.Holds [] e := by simp [Memo.Holds]
  rw [askAll, hfold]
  tauto

theorem Dialect.askAll_sound (d : Dialect) (es : List String) : (d.askAll es).Sound d := by
  have hfold : ∀ (es : List String) (m : Memo), m.Sound d →
      Memo.Sound d (es.foldl (fun m e => (d.ask m e).2) m) := by
    intro es
    induction es with
    | nil => exact fun m hm => hm
    | cons e es ih => exact fun m hm => ih _ (hm.ask_sound e)
  exact hfold es [] (Memo.sound_nil d)

end Harvest
