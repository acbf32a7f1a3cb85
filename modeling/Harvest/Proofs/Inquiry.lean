import Harvest.Options
import Harvest.Proofs.Memo
import Mathlib.Data.List.Induction

/-
  Expressions asked for in a row, and what each asking has to do with those before it.

  A query keeps its place in the memo, whatever is asked for (`Dialect.find?_ask`). So after a row the memo finds each
  query that was handed out, at the place that it was handed out with (`Dialect.find?_askAll`), and it has no other
  expressions (`Dialect.find?_askAll_eq_none`).
    1. `Dialect.inquiries_exact` — each answer is that of a fresh memo; the query is the very one that the first success
       handed out, or else one that was never handed out before; only a first success is logged; and an expression
       that fails leaves no trace and fails in every row.
  Under an empty argument separator a scan may go on for ever: such an expression gets no answer, and it ends the row.
-/
namespace Harvest
open Text

/-! ## One asking -/

namespace Memo
variable {m : Memo} {e : String}

theorem find?_append {r : Nat × Query} (h : m.find? e = some r) (qs : List Query) :
    Memo.find? (m ++ qs) e = some r := by
  obtain ⟨front, back, rfl, hrest⟩ := find?_eq_some_iff.mp h
  exact find?_eq_some_iff.mpr ⟨front, back ++ qs, by simp, hrest⟩

theorem find?_concat {q : Query} (h : m.find? q.expression = none) :
    Memo.find? (m ++ [q]) q.expression = some (m.length, q) := by
  refine find?_eq_some_iff.mpr ⟨m, [], rfl, rfl, rfl, fun p hp he => ?_⟩
  exact find?_eq_none.mp h ⟨p, hp, he⟩

theorem place_lt {i : Nat} {q : Query} (h : m.find? e = some (i, q)) : i < m.length := by
  obtain ⟨front, back, rfl, rfl, -⟩ := find?_eq_some_iff.mp h
  simp

end Memo

/-- One time that an expression was asked for. -/
structure Inquiry where
  expression : String
  /-- The memo that was there. -/
  before : Memo
  answer : Except QueryFault Answer
  /-- The memo that was left. -/
  after : Memo

namespace Inquiry

/-- The query that was handed out, with its place, which is its identity. -/
def object? (i : Inquiry) : Option (Nat × Query) := i.answer.toOption.map fun a => (a.place, a.query)

/-- What was logged. -/
def events (i : Inquiry) : List Event := (i.answer.toOption.map (·.events)).getD []

/-- Whether a query was handed out for an expression. -/
def answers (i : Inquiry) (e : String) : Bool := i.expression == e && i.object?.isSome

end Inquiry

/-- Asks for an expression. -/
def Dialect.inquire (d : Dialect) (m : Memo) (e : String) : Inquiry := ⟨e, m, (d.ask m e).1, (d.ask m e).2⟩

namespace Dialect
variable {d : Dialect} {m : Memo} {e : String} {o : Nat × Query}

/-- What is found stays at its place, whatever is asked for. -/
theorem find?_ask (h : m.find? e = some o) (e' : String) : (d.ask m e').2.find? e = some o := by
  obtain ⟨i, q, -, hask⟩ | ⟨q, events, -, -, hask⟩ | ⟨f, -, -, hask⟩ := ask_cases d m e'
  · rwa [hask]
  · rw [hask]
    exact Memo.find?_append h [q]
  · rwa [hask]

/-- What was handed out is found where it was handed out. -/
theorem find?_inquire (h : (d.inquire m e).object? = some o) : (d.inquire m e).after.find? e = some o := by
  obtain ⟨i, q, hfind, hask⟩ | ⟨q, events, hnone, hread, hask⟩ | ⟨f, -, -, hask⟩ := ask_cases d m e
  · rw [inquire, hask] at h ⊢
    cases h
    exact hfind
  · obtain ⟨rfl, -⟩ := read_form hread
    rw [inquire, hask] at h ⊢
    cases h
    exact Memo.find?_concat hnone
  · rw [inquire, hask] at h
    cases h

theorem inquire_found (h : m.find? e = some o) : (d.inquire m e).object? = some o ∧ (d.inquire m e).events = [] := by
  rw [inquire, ask, h]
  exact ⟨rfl, rfl⟩

/-- What is not found is read as with a fresh memo, and what is handed out is new to the memo. -/
theorem inquire_missing (h : m.find? e = none) :
    (d.inquire m e).events = (d.inquire [] e).events ∧
      ∀ o, (d.inquire m e).object? = some o → o.1 = m.length := by
  have hfresh : Memo.find? [] e = none := rfl
  rw [inquire, inquire, ask, ask, h, hfresh]
  cases d.read e with
  | error f => exact ⟨rfl, nofun⟩
  | ok a =>
    refine ⟨rfl, fun o ho => ?_⟩
    cases ho
    rfl

theorem after_inquire_of_error {f : QueryFault} (h : (d.inquire m e).answer = .error f) : (d.inquire m e).after = m := by
  obtain ⟨i, q, -, hask⟩ | ⟨q, events, -, -, hask⟩ | ⟨g, -, -, hask⟩ := ask_cases d m e
  · rw [inquire, hask]
  · rw [inquire, hask] at h
    cases h
  · rw [inquire, hask]

/-! ## Asking in a row -/

/-- Asks for expressions, one after the other. -/
def inquiriesFrom (d : Dialect) : Memo → List String → List Inquiry
  | _, [] => []
  | m, e :: es => d.inquire m e :: d.inquiriesFrom (d.inquire m e).after es

/-- Asks for expressions, one after the other, beginning with a fresh memo. -/
def inquiries (d : Dialect) (es : List String) : List Inquiry := d.inquiriesFrom [] es

theorem inquiriesFrom_append (d : Dialect) (m : Memo) (es es' : List String) :
    d.inquiriesFrom m (es ++ es')
      = d.inquiriesFrom m es ++ d.inquiriesFrom (es.foldl (fun m e => (d.ask m e).2) m) es' := by
  induction es generalizing m with
  | nil => rfl
  | cons e es ih => exact congrArg (d.inquire m e :: ·) (ih (d.ask m e).2)

theorem map_expression_inquiries (d : Dialect) (es : List String) : (d.inquiries es).map (·.expression) = es := by
  have hfrom : ∀ m, (d.inquiriesFrom m es).map (·.expression) = es := by
    induction es with
    | nil => exact fun _ => rfl
    | cons e es ih => exact fun m => congrArg (e :: ·) (ih (d.ask m e).2)
  exact hfrom []

variable {es : List String} {i : Inquiry}

/-- Each inquiry of a row meets the memo that the inquiries before it leave. -/
theorem inquiries_cut {earlier later : List Inquiry} (h : d.inquiries es = earlier ++ i :: later) :
    ∃ front, earlier = d.inquiries front ∧ i = d.inquire (d.askAll front) i.expression := by
  have hes : earlier.map (·.expression) ++ i.expression :: later.map (·.expression) = es := by
    rw [← d.map_expression_inquiries es, h, List.map_append, List.map_cons]
  have hcut := d.inquiriesFrom_append [] (earlier.map (·.expression)) (i.expression :: later.map (·.expression))
  rw [hes] at hcut
  have hlength : earlier.length = (d.inquiries (earlier.map (·.expression))).length := by
    have hmap := congrArg List.length (d.map_expression_inquiries (earlier.map (·.expression)))
    rw [List.length_map, List.length_map] at hmap
    exact hmap.symm
  obtain ⟨hearlier, hrest⟩ := List.append_inj (h.symm.trans hcut) hlength
  exact ⟨_, hearlier, (List.cons.inj hrest).1⟩

/-- After a row each query that was handed out is found where it was handed out. By induction from the last inquiry. -/
theorem find?_askAll (hi : i ∈ d.inquiries es) (ho : i.object? = some o) : (d.askAll es).find? i.expression = some o := by
  induction es using List.reverseRecOn with
  | nil => cases hi
  | append_singleton es e ih =>
    rw [inquiries, inquiriesFrom_append] at hi
    rw [askAll, List.foldl_concat]
    rcases List.mem_append.mp hi with hi | hi
    · exact find?_ask (ih hi) e
    · obtain rfl := List.mem_singleton.mp hi
      exact find?_inquire ho

theorem answer_of_mem (hi : i ∈ d.inquiries es) : i.answer.map (·.query) = (d.read i.expression).map (·.1) := by
  obtain ⟨earlier, later, h⟩ := List.append_of_mem hi
  obtain ⟨front, -, hinquire⟩ := inquiries_cut h
  rw [hinquire]
  exact (d.askAll_sound front).ask_query _

theorem find?_askAll_eq_none (h : (d.inquiries es).find? (·.answers e) = none) : (d.askAll es).find? e = none := by
  rw [Memo.find?_eq_none, holds_askAll]
  rintro ⟨he, r, hr⟩
  rw [← d.map_expression_inquiries es] at he
  obtain ⟨i, hi, rfl⟩ := List.mem_map.mp he
  have hanswer := answer_of_mem hi
  rw [hr] at hanswer
  obtain ⟨a, ha, -⟩ := map_eq_ok.mp hanswer
  refine List.find?_eq_none.mp h i hi ?_
  simp [Inquiry.answers, Inquiry.object?, ha, Except.toOption]

/-- In a row of questions, whatever the dialect, each is answered as by a fresh memo. Where an earlier one for the same
expression was answered with a query, the answer is the query that the first of them handed out, and nothing is
logged; else it is one that was not handed out before, and what is logged is what a fresh memo logs. A question that
fails leaves the memo as it was, and its expression fails in the same way in every row. -/
theorem inquiries_exact {earlier later : List Inquiry} (h : d.inquiries es = earlier ++ i :: later) :
    let fresh := d.inquire [] i.expression
    let first? := earlier.find? (·.answers i.expression)
    i.answer.map (·.query) = fresh.answer.map (·.query) ∧
      (∀ j, first? = some j → i.object? = j.object? ∧ i.events = []) ∧
      (first? = none → i.events = fresh.events ∧
        ∀ o, i.object? = some o → ∀ j ∈ earlier, ∀ o', j.object? = some o' → o'.1 ≠ o.1) ∧
      ∀ f, i.answer = .error f → i.after = i.before ∧
        ∀ es', ∀ j ∈ d.inquiries es', j.expression = i.expression → j.answer = .error f := by
  intro fresh first?
  have hmem : i ∈ d.inquiries es := by simp [h]
  have hread : i.answer.map (·.query) = (d.read i.expression).map (·.1) := answer_of_mem hmem
  have hfresh : fresh.answer.map (·.query) = (d.read i.expression).map (·.1) := (Memo.sound_nil d).ask_query _
  obtain ⟨front, rfl, hi⟩ := inquiries_cut h
  refine ⟨hread.trans hfresh.symm, ?_, ?_, ?_⟩
  · -- the memo still has what the first success put there
    intro j hj
    obtain ⟨hsame, hsome⟩ : j.expression = i.expression ∧ j.object?.isSome := by
      simpa [Inquiry.answers] using List.find?_some hj
    obtain ⟨o, ho⟩ := Option.isSome_iff_exists.mp hsome
    have hfind := find?_askAll (List.mem_of_find?_eq_some hj) ho
    rw [hsame] at hfind
    rw [hi, ho]
    exact inquire_found hfind
  · -- the place behind all others in the memo is new, as those handed out before are places in it
    intro hnone
    obtain ⟨hevents, hplace⟩ := inquire_missing (find?_askAll_eq_none hnone)
    rw [← hi] at hevents hplace
    refine ⟨hevents, fun o ho j hj o' ho' => ?_⟩
    rw [hplace o ho]
    exact Nat.ne_of_lt (Memo.place_lt (find?_askAll hj ho'))
  · intro f hf
    refine ⟨?_, fun es' j hj hsame => ?_⟩
    · rw [hi] at hf ⊢
      exact after_inquire_of_error hf
    · rw [hf] at hread
      have hanswer := answer_of_mem hj
      rw [hsame, ← hread] at hanswer
      exact map_eq_error.mp hanswer

/-- A pattern with one group only. -/
def oneGroup : Regex.Expression := ⟨"(a)", .group 1 (.char 'a' false), 1⟩

/-- The standard dialect with that pattern for selectors. -/
def oneGrouped : Dialect := { Options.standardDialect with selectorPattern := oneGroup }

/-- The query of a text that does not fit the pattern. -/
def unfitting : Query := { selector := some "b", expression := "b" }

theorem read_fitting : oneGrouped.read "a" = .error .noGroup := by
  have hsplit : oneGrouped.filterSeparator.split (trim "a".toList) = [some ['a']] := by decide +kernel
  have hmatch : oneGrouped.selectorPattern.matchAt? ['a'] = some ⟨['a'], [], [(1, ['a'])]⟩ := rfl
  simp only [read, hsplit, hmatch]
  rfl

theorem read_unfitting : oneGrouped.read "b" = .ok (unfitting, [.selectorUnparsed "b"]) := by
  have hsplit : oneGrouped.filterSeparator.split (trim "b".toList) = [some ['b']] := by decide +kernel
  have hmatch : oneGrouped.selectorPattern.matchAt? ['b'] = none := rfl
  simp only [read, hsplit, hmatch]
  rfl

theorem inquire_fitting (m : Memo) (h : m.find? "a" = none) :
    oneGrouped.inquire m "a" = ⟨"a", m, .error .noGroup, m⟩ := by
  simp only [inquire, ask, h, read_fitting]

theorem inquire_unfitting :
    oneGrouped.inquire [] "b" = ⟨"b", [], .ok ⟨0, unfitting, [.selectorUnparsed "b"]⟩, [unfitting]⟩ := by
  have hnone : Memo.find? [] "b" = none := rfl
  simp only [inquire, ask, hnone, read_unfitting]
  rfl

/-- A row in which one expression fails twice and the query of another is handed out twice. -/
theorem inquiries_exact_sample :
    let first : Inquiry := ⟨"b", [], .ok ⟨0, unfitting, [.selectorUnparsed "b"]⟩, [unfitting]⟩
    let failed : Inquiry := ⟨"a", [unfitting], .error .noGroup, [unfitting]⟩
    let second : Inquiry := ⟨"b", [unfitting], .ok ⟨0, unfitting, []⟩, [unfitting]⟩
    Regex.Expression.read oneGroup.source = .ok oneGroup ∧
      oneGrouped.inquiries ["a", "b", "a", "b"] = [⟨"a", [], .error .noGroup, []⟩, first] ++ failed :: [second] ∧
      second.object? = first.object? ∧ second.events = [] ∧ failed.after = failed.before ∧
      ∀ es, ∀ j ∈ oneGrouped.inquiries es, j.expression = "a" → j.answer = .error .noGroup := by
  intro first failed second
  have hpattern : Regex.Expression.read oneGroup.source = .ok oneGroup := by decide +kernel
  have hagain : oneGrouped.inquire [unfitting] "b" = second := rfl
  have hrow : oneGrouped.inquiries ["a", "b", "a", "b"] =
      [⟨"a", [], .error .noGroup, []⟩, first] ++ failed :: [second] := by
    simp only [inquiries, inquiriesFrom, inquire_fitting [] rfl, inquire_unfitting,
      inquire_fitting [unfitting] rfl, hagain]
    rfl
  have hrow' : oneGrouped.inquiries ["a", "b", "a", "b"] =
      [⟨"a", [], .error .noGroup, []⟩, first, failed] ++ second :: [] := hrow
  obtain ⟨-, -, -, hfailed⟩ := inquiries_exact hrow
  obtain ⟨-, hsecond, -⟩ := inquiries_exact hrow'
  obtain ⟨hafter, hfails⟩ := hfailed .noGroup rfl
  obtain ⟨hobject, hevents⟩ := hsecond first rfl
  exact ⟨hpattern, hrow, hobject, hevents, hafter, hfails⟩

end Dialect
end Harvest
