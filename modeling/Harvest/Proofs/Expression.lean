import Harvest.Proofs.Reading

/-
  Queries written down and read back, in the standard dialect.

  A query is written as its selector, its attribute in brackets, and behind bars the names of filters with their
  arguments in quotes (`WrittenQuery.text`). A colon or a blank in an argument is safe in its quotes, and a bracket
  stands behind the first bar; a bar is not, because the text is cut at bars before quotes are looked at. So what was
  written is read back exactly when no argument holds a bar: `ask_written_iff`.
-/
namespace Harvest
open Text

/-! ## Written queries -/

/-- A filter as it can be written: its arguments are in quotes, its name is not. -/
structure WrittenInvocation where
  name : String
  args : List Quotation
  name_ne_nil : name.toList ≠ []
  trim_name : trim name.toList = name.toList
  colon_not_mem : ':' ∉ name.toList
  bar_not_mem : '|' ∉ name.toList
  not_quote : ∀ c r, name.toList = c :: r → Invocation.isQuote c = false

/-- A query as it can be written. -/
structure WrittenQuery where
  selector : Option String
  part : Option String
  invocations : List WrittenInvocation
  selector_ne_nil : ∀ s ∈ selector, s.toList ≠ []
  trim_selector : ∀ s ∈ selector, trim s.toList = s.toList
  not_mem_selector : ∀ s ∈ selector, ∀ c ∈ s.toList, c ≠ '|' ∧ c ≠ '['
  part_ne_nil : ∀ p ∈ part, p.toList ≠ []
  trim_part : ∀ p ∈ part, trim p.toList = p.toList
  not_mem_part : ∀ p ∈ part, ∀ c ∈ p.toList, c ≠ '|' ∧ c ≠ '[' ∧ c ≠ ']'

namespace WrittenInvocation
variable (i : WrittenInvocation)

/-- The invocation that is meant. -/
def meant : Invocation := ⟨i.name, i.args.map fun a => String.ofList a.text⟩

/-- The name, and the arguments in quotes with colons in front. -/
def letters : List Char := Invocation.written [':'] i.name.toList i.args

end WrittenInvocation

namespace WrittenQuery
variable (w : WrittenQuery)

/-- The characters of the selector. -/
def selectorLetters : List Char := w.selector.elim [] String.toList

/-- The attribute in brackets. -/
def partLetters : List Char := w.part.elim [] fun p => '[' :: (p.toList ++ [']'])

/-- The selector and the attribute. -/
def fieldLetters : List Char := w.selectorLetters ++ w.partLetters

/-- The text that is written. -/
def text : String := String.ofList (w.fieldLetters ++ w.invocations.flatMap fun i => [' ', '|', ' '] ++ i.letters)

/-- Whether a query is what was written, each step with the filter of its name. -/
def MeantBy (r : Registry) (q : Query) : Prop :=
  q.selector = w.selector ∧ q.part = w.part ∧ q.steps.map Step.invocation = w.invocations.map (·.meant) ∧
    ∀ s ∈ q.steps, r.find? s.name = some s.filter

end WrittenQuery

/-! ## Reading invocations back -/

namespace WrittenInvocation
variable (i : WrittenInvocation)

theorem letters_ne_nil : i.letters ≠ [] := by
  intro h
  exact i.name_ne_nil (List.append_eq_nil_iff.mp h).1

/-- What is written is trimmed: a name stands first, and last a quote or that name. -/
theorem trim_letters : trim i.letters = i.letters := by
  have hname := trimLeft_of_trim i.trim_name
  refine trim_of_ends (trimLeft_append_eq_self i.name_ne_nil hname _) ?_
  rcases List.eq_nil_or_concat i.args with hargs | ⟨as, a, hargs⟩
  · rw [letters, Invocation.written, hargs, List.flatMap_nil, List.append_nil]
    exact trimRight_of_trim i.trim_name
  · have hlast : i.letters = (i.name.toList ++ as.flatMap (fun a => [':'] ++ a.letters) ++ ':' :: a.quote :: a.text)
        ++ [a.quote] := by
      rw [letters, Invocation.written, hargs]
      simp [Quotation.letters]
    rw [hlast]
    exact trimRight_concat (Invocation.isBlank_of_isQuote a.is_quote) _

theorem allBlank_letters : allBlank i.letters = false := by
  rw [← Bool.not_eq_true, ← trim_eq_nil, i.trim_letters]
  exact i.letters_ne_nil

theorem read_letters : Invocation.read ":" (String.ofList i.letters) = i.meant := by
  have hclear : Invocation.ClearOf [':'] i.name.toList [':'] := Invocation.clearOf_single i.colon_not_mem
  have hcolon : ∀ c ∈ ":".toList, Invocation.isQuote c = false := List.forall_mem_singleton.mpr (by decide)
  have hread := Invocation.read_written ":" i.args (by decide) hcolon hclear i.trim_name i.not_quote
  rwa [String.ofList_toList] at hread

/-- A bar can stand only in an argument. -/
theorem bar_not_mem_letters (h : ∀ a ∈ i.args, '|' ∉ a.text) : '|' ∉ i.letters := by
  intro hbar
  rcases List.mem_append.mp hbar with hname | hargs
  · exact i.bar_not_mem hname
  · obtain ⟨a, ha, hmem⟩ := List.mem_flatMap.mp hargs
    have hquote : '|' ≠ a.quote := by
      intro he
      have hq := a.is_quote
      rw [← he] at hq
      cases hq
    simp [Quotation.letters, hquote, h a ha] at hmem

theorem invocationsOf_letters (is : List WrittenInvocation) :
    invocationsOf (is.map (·.letters)) = is.map (·.meant) := by
  have hkept : (is.map (·.letters)).filter (fun p => !allBlank p) = is.map (·.letters) := by
    rw [List.filter_eq_self]
    intro p hp
    obtain ⟨i, -, rfl⟩ := List.mem_map.mp hp
    simp [i.allBlank_letters]
  rw [invocationsOf, hkept, List.map_map]
  refine List.map_congr_left ?_
  intro i _
  exact i.read_letters

end WrittenInvocation

/-! ## Reading fields back -/

namespace WrittenQuery
variable (w : WrittenQuery)

/-- A trimmed selector, and perhaps brackets behind it, is trimmed. -/
theorem trim_fieldLetters : trim w.fieldLetters = w.fieldLetters := by
  have hselector : trim w.selectorLetters = w.selectorLetters := by
    rw [selectorLetters]
    cases hs : w.selector with
    | none => rfl
    | some s => exact w.trim_selector s hs
  rw [fieldLetters, partLetters]
  cases hp : w.part with
  | none => simpa using hselector
  | some p =>
    have hlast : w.selectorLetters ++ '[' :: (p.toList ++ [']']) = (w.selectorLetters ++ '[' :: p.toList) ++ [']'] := by
      simp
    refine trim_of_ends ?_ ?_
    · by_cases hne : w.selectorLetters = []
      · rw [hne]
        exact trimLeft_cons_of_not_blank (by decide) _
      · exact trimLeft_append_eq_self hne (trimLeft_of_trim hselector) _
    · rw [Option.elim_some, hlast]
      exact trimRight_concat (by decide) _

theorem bar_not_mem_fieldLetters : '|' ∉ w.fieldLetters := by
  intro hbar
  rw [fieldLetters, selectorLetters, partLetters] at hbar
  rcases List.mem_append.mp hbar with h | h
  · cases hs : w.selector with
    | none => simp [hs] at h
    | some s =>
      rw [hs] at h
      exact (w.not_mem_selector s hs '|' h).1 rfl
  · cases hp : w.part with
    | none => simp [hp] at h
    | some p =>
      rw [hp] at h
      have hmem : '|' ∈ p.toList := by simpa using h
      exact (w.not_mem_part p hp '|' hmem).1 rfl

theorem bracket_not_mem_selectorLetters : '[' ∉ w.selectorLetters := by
  rw [selectorLetters]
  cases hs : w.selector with
  | none => simp
  | some s => exact fun h => (w.not_mem_selector s hs '[' h).2 rfl

theorem filled_selectorLetters : filled? (unlessEmpty w.selectorLetters) = w.selector := by
  rw [selectorLetters]
  cases hs : w.selector with
  | none => rfl
  | some s =>
    rw [Option.elim_some, unlessEmpty, if_neg (w.selector_ne_nil s hs)]
    exact filled_some (w.selector_ne_nil s hs) (w.trim_selector s hs)

/-- The pattern takes a field apart into what was written. -/
theorem fieldParts_letters : ∃ p, fieldParts w.fieldLetters = some (unlessEmpty w.selectorLetters, p) ∧
    filled? p = w.part := by
  rw [fieldLetters, partLetters]
  cases hp : w.part with
  | none =>
    refine ⟨none, ?_, rfl⟩
    rw [Option.elim_none, List.append_nil]
    exact fieldParts_selector w.bracket_not_mem_selectorLetters
  | some p =>
    refine ⟨some p.toList, ?_, filled_some (w.part_ne_nil p hp) (w.trim_part p hp)⟩
    have hopen : '[' ∉ p.toList := fun h => (w.not_mem_part p hp '[' h).2.1 rfl
    have hclose : ']' ∉ p.toList := fun h => (w.not_mem_part p hp ']' h).2.2 rfl
    exact fieldParts_attribute w.bracket_not_mem_selectorLetters (w.part_ne_nil p hp) hopen hclose

/-! ## Reading queries back -/

/-- Without a bar in an argument, the pieces of the text are what was written. -/
theorem pieces_text (h : ∀ i ∈ w.invocations, ∀ a ∈ i.args, '|' ∉ a.text) :
    pieces '|' w.text.toList = w.fieldLetters :: w.invocations.map (·.letters) := by
  have hvs : ∀ v ∈ w.invocations.map (·.letters), '|' ∉ v := by
    intro v hv
    obtain ⟨i, hi, rfl⟩ := List.mem_map.mp hv
    exact i.bar_not_mem_letters (h i hi)
  have hkept : (w.invocations.map (·.letters)).map trim = w.invocations.map (·.letters) := by
    rw [List.map_map]
    refine List.map_congr_left ?_
    intro i _
    exact i.trim_letters
  have hpieces := pieces_flatMap (c := '|') (by decide) space_blank space_blank w.bar_not_mem_fieldLetters hvs
  rw [List.flatMap_map, w.trim_fieldLetters, hkept] at hpieces
  rw [text, String.toList_ofList]
  exact hpieces

/-- Without a bar in an argument, the text reads as what was written. -/
theorem meantBy_of_bar_not_mem (r : Registry) (hr : ∀ i ∈ w.invocations, (r.find? i.name).isSome)
    (h : ∀ i ∈ w.invocations, ∀ a ∈ i.args, '|' ∉ a.text) :
    ∃ q events, r.dialect.read w.text = .ok (q, events) ∧ w.MeantBy r q := by
  obtain ⟨p, hparts, hp⟩ := w.fieldParts_letters
  have hknown : ∀ i ∈ w.invocations.map (·.meant), (r.find? i.name).isSome := by
    intro i hi
    obtain ⟨j, hj, rfl⟩ := List.mem_map.mp hi
    exact hr j hj
  refine ⟨_, _, r.read_eq w.text (w.pieces_text h), ?_⟩
  simp only [hparts, WrittenInvocation.invocationsOf_letters]
  refine ⟨w.filled_selectorLetters, hp, Registry.invocation_bind hknown, ?_⟩
  intro s hs
  exact (Registry.step_of_mem_bind hs).2

/-- A query that is what was written has no bar in an argument, since it was read. -/
theorem bar_not_mem_of_meantBy {r : Registry} {q : Query} {events : List Event}
    (h : r.dialect.read w.text = .ok (q, events)) (hq : w.MeantBy r q) :
    ∀ i ∈ w.invocations, ∀ a ∈ i.args, '|' ∉ a.text := by
  obtain ⟨-, -, hsteps, -⟩ := hq
  intro i hi a ha
  have hmeant : i.meant ∈ q.steps.map Step.invocation := by
    rw [hsteps]
    exact List.mem_map_of_mem hi
  obtain ⟨s, hs, hsi⟩ := List.mem_map.mp hmeant
  have hargs : String.ofList a.text ∈ s.args := by
    have hsargs : s.args = i.meant.args := congrArg Invocation.args hsi
    rw [hsargs]
    exact List.mem_map_of_mem (f := fun a : Quotation => String.ofList a.text) ha
  have hbar := Registry.bar_not_mem_of_read h hs hargs
  rwa [String.toList_ofList] at hbar

end WrittenQuery

/-- Whatever was asked for before, a written query whose filters are known is read back as it was meant exactly when no
argument holds a bar. -/
theorem ask_written_iff (r : Registry) (w : WrittenQuery) (hr : ∀ i ∈ w.invocations, (r.find? i.name).isSome)
    (earlier : List String) :
    (∃ q, (r.dialect.ask (r.dialect.askAll earlier) w.text).1.map (·.query) = .ok q ∧ w.MeantBy r q) ↔
      ∀ i ∈ w.invocations, ∀ a ∈ i.args, '|' ∉ a.text := by
  have hask := (r.dialect.askAll_sound earlier).ask_query w.text
  constructor
  · rintro ⟨q, hq, hmeant⟩
    rw [hask] at hq
    obtain ⟨⟨q', events⟩, hread, rfl⟩ : ∃ p, r.dialect.read w.text = .ok p ∧ p.1 = q := by
      cases hr : r.dialect.read w.text with
      | error f => simp [hr, Except.map] at hq
      | ok p => exact ⟨p, rfl, by simpa [hr, Except.map] using hq⟩
    exact w.bar_not_mem_of_meantBy hread hmeant
  · intro h
    obtain ⟨q, events, hread, hmeant⟩ := w.meantBy_of_bar_not_mem r hr h
    refine ⟨q, ?_, hmeant⟩
    rw [hask, hread]
    rfl

/-- `li > a[href] | trim:"it's: [a]":''`, every part of which is special to some step of the reading. -/
def sampleWritten : WrittenQuery where
  selector := some "li > a"
  part := some "href"
  invocations := [
    { name := "trim"
      args := [⟨"it's: [a]".toList, '"', by decide, by decide⟩, ⟨[], '\'', by decide, by decide⟩]
      name_ne_nil := by decide
      trim_name := by decide
      colon_not_mem := by decide
      bar_not_mem := by decide
      not_quote := by
        intro c r h
        rw [(List.cons.inj h).1.symm]
        rfl }]
  selector_ne_nil := by simp
  trim_selector := by simp; decide
  not_mem_selector := by simp
  part_ne_nil := by simp
  trim_part := by simp; decide
  not_mem_part := by simp

theorem ask_written_iff_sample :
    (∀ i ∈ sampleWritten.invocations, (Filter.standard.find? i.name).isSome) ∧
      ∃ q, (Filter.standard.dialect.ask (Filter.standard.dialect.askAll ["li", "a | trim"]) sampleWritten.text).1.map
        (·.query) = .ok q ∧ sampleWritten.MeantBy Filter.standard q := by
  have hknown : ∀ i ∈ sampleWritten.invocations, (Filter.standard.find? i.name).isSome := by
    intro i hi
    obtain rfl := List.mem_singleton.mp hi
    rfl
  have hbar : ∀ i ∈ sampleWritten.invocations, ∀ a ∈ i.args, '|' ∉ a.text := by
    intro i hi
    obtain rfl := List.mem_singleton.mp hi
    simp
  exact ⟨hknown, (ask_written_iff Filter.standard sampleWritten hknown ["li", "a | trim"]).mpr hbar⟩

end Harvest
