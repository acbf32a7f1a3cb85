import Harvest.Proofs.Field
import Harvest.Proofs.Quoting
import Harvest.Proofs.Separator
import Harvest.Proofs.Memo

/-
  Reading in the standard dialect, from the pieces of a text between its bars.

  The first piece is the field, and the others that are not empty are invocations (`read_eq`). So reading always gives a
  query, and no argument of its steps holds a bar (`bar_not_mem_of_read`).
-/
namespace Harvest
open Text

/-- The standard dialect with filters. -/
def Registry.dialect (r : Registry) : Dialect := { Options.standardDialect with filters := r }

theorem Registry.dialect_eq (r : Registry) : r.dialect = ⟨r, field, bar, ":"⟩ := by
  rw [dialect, selectorPattern_eq, filterSeparator_eq]
  rfl

/-- The invocations that pieces write down. -/
def invocationsOf (ps : List (List Char)) : List Invocation :=
  (ps.filter fun p => !allBlank p).map fun p => Invocation.read ":" (String.ofList p)

theorem invocations_some (ps : List (List Char)) : invocations ":" (ps.map some) = .ok (invocationsOf ps) := by
  induction ps with
  | nil => rfl
  | cons p ps ih =>
    rw [List.map_cons, invocations, ih]
    by_cases hp : allBlank p = true
    · simp [hp, invocationsOf, bind, Except.bind, pure, Except.pure]
    · simp [hp, invocationsOf, bind, Except.bind, pure, Except.pure]

/-- A text that is trimmed and not empty is kept as it is. -/
theorem filled_some {s : String} (hne : s.toList ≠ []) (ht : trim s.toList = s.toList) :
    filled? (some s.toList) = some s := by
  rw [filled?, Option.map_some, ht]
  split
  · next h => cases h
  · next h => exact absurd (Option.some.inj h) hne
  · next t h => rw [← Option.some.inj h, String.ofList_toList]

theorem filled_unlessEmpty (w : List Char) : filled? (unlessEmpty w) = filled? (some w) := by
  by_cases h : w = []
  · subst h
    rfl
  · rw [unlessEmpty, if_neg h]

/-- Where a pattern with two groups takes the first piece apart, the groups are selector and part, and the other pieces
the invocations. -/
theorem Dialect.read_of_parts {r : Registry} {p : Regex.Expression} (hp : p.groups = 2) (e : String) {f : List Char}
    {ps : List (List Char)} {selector part : Option (List Char)} (h : pieces '|' e.toList = f :: ps)
    (hparts : p.parts? f = some (selector, part)) :
    (⟨r, p, bar, ":"⟩ : Dialect).read e = .ok (⟨filled? selector, filled? part, r.bind (invocationsOf ps), e⟩,
      Dialect.unknownEvents e (invocationsOf ps) (r.bind (invocationsOf ps))) := by
  have hsplit := split_trim_cons h
  obtain ⟨place, hmatch, hgroups⟩ := Option.map_eq_some_iff.mp hparts
  rw [Prod.mk.injEq] at hgroups
  have htexts : p.groupTexts place = [selector, part] := by
    rw [Regex.Expression.groupTexts, hp, ← hgroups.1, ← hgroups.2]
    rfl
  rw [Dialect.read]
  simp only [hsplit, hmatch, htexts, Dialect.assemble, invocations_some]
  rfl

/-- What a field and the pieces behind it read as. -/
def Registry.readPieces (r : Registry) (expression : String) (f : List Char) (ps : List (List Char)) :
    Query × List Event :=
  match fieldParts f with
  | none => ({ selector := filled? (some f), expression }, [.selectorUnparsed expression])
  | some (selector, part) =>
    let steps := r.bind (invocationsOf ps)
    (⟨filled? selector, filled? part, steps, expression⟩, Dialect.unknownEvents expression (invocationsOf ps) steps)

/-- Reading never fails, and goes by the pieces of the text. -/
theorem Registry.read_eq (r : Registry) (e : String) {f : List Char} {ps : List (List Char)}
    (h : pieces '|' e.toList = f :: ps) : r.dialect.read e = .ok (r.readPieces e f ps) := by
  rw [dialect_eq, readPieces]
  cases hparts : fieldParts f with
  | none =>
    have hsplit := split_trim_cons h
    rw [Dialect.read]
    simp only [hsplit, Option.map_eq_none_iff.mp hparts]
  | some parts => exact Dialect.read_of_parts rfl e h hparts

theorem Registry.exists_read_eq (r : Registry) (e : String) :
    ∃ f ps, pieces '|' e.toList = f :: ps ∧ r.dialect.read e = .ok (r.readPieces e f ps) := by
  obtain ⟨f, ps, h⟩ := List.exists_cons_of_ne_nil (pieces_ne_nil '|' e.toList)
  exact ⟨f, ps, h, r.read_eq e h⟩

/-! ## Steps -/

/-- The invocation that a step was bound from. -/
def Step.invocation (s : Step) : Invocation := ⟨s.name, s.args⟩

variable {r : Registry} {s : Step} {is : List Invocation}

/-- A bound step is one of the invocations, with the filter of its name. -/
theorem Registry.step_of_mem_bind (h : s ∈ r.bind is) : s.invocation ∈ is ∧ r.find? s.name = some s.filter := by
  obtain ⟨i, hi, hs⟩ := List.mem_filterMap.mp h
  obtain ⟨f, hf, rfl⟩ := Option.map_eq_some_iff.mp hs
  exact ⟨hi, hf⟩

/-- Where every filter is known, every invocation is bound. -/
theorem Registry.invocation_bind (h : ∀ i ∈ is, (r.find? i.name).isSome) : (r.bind is).map Step.invocation = is := by
  induction is with
  | nil => rfl
  | cons i is ih =>
    obtain ⟨f, hf⟩ := Option.isSome_iff_exists.mp (h i List.mem_cons_self)
    have hbind : r.bind? i = some ⟨i.name, i.args, f⟩ := by rw [Registry.bind?, hf, Option.map_some]
    rw [Registry.bind, List.filterMap_cons_some hbind, List.map_cons]
    exact congrArg (i :: ·) (ih fun j hj => h j (List.mem_cons_of_mem i hj))

/-- No argument of a query that was read holds a bar: each was read from one piece. -/
theorem Registry.bar_not_mem_of_read {e : String} {q : Query} {events : List Event}
    (h : r.dialect.read e = .ok (q, events)) (hs : s ∈ q.steps) {a : String} (ha : a ∈ s.args) : '|' ∉ a.toList := by
  obtain ⟨f, ps, hpieces, hread⟩ := r.exists_read_eq e
  rw [hread, Except.ok.injEq] at h
  have hq : (r.readPieces e f ps).1 = q := by rw [h]
  subst hq
  rw [readPieces] at hs
  split at hs
  · cases hs
  · obtain ⟨hmem, -⟩ := step_of_mem_bind hs
    obtain ⟨p, hp, hi⟩ := List.mem_map.mp hmem
    have hpiece : p ∈ pieces '|' e.toList := by
      rw [hpieces]
      exact List.mem_cons_of_mem f (List.mem_of_mem_filter hp)
    have hargs : a ∈ (Invocation.read ":" (String.ofList p)).args := by
      rw [hi]
      exact ha
    intro hbar
    have hbar' := Invocation.mem_of_mem_args hargs hbar
    rw [String.toList_ofList] at hbar'
    exact not_mem_of_mem_pieces hpiece hbar'

end Harvest
