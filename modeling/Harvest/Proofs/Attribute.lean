import Harvest.Proofs.Reading

/-
  Three markings of the attribute behind a selector: square brackets, an at sign in front of it, and braces.

  Each marking has a pattern of its own, and all three patterns have two parts: a selector up to the character with which
  the marking begins, and what that character begins (`Marking.expression_eq`). So a selector without any of these
  characters, and an attribute that no marking could cut short, are taken apart in the same way (`Marking.parts_selector`,
  `Marking.parts_attribute`); what stands behind the first bar has nothing to do with the marking.
    1. `Registry.ask_marked` — in each marking, a query is read as the same selector, the same attribute and the same
       steps.
-/
namespace Harvest
open Text Regex

/-- How an attribute is marked off from the selector in front of it. -/
inductive Marking where
  | brackets
  | atSign
  | braces
  deriving DecidableEq, Repr

namespace Marking

/-- The text of the pattern. -/
def pattern : Marking → String
  | brackets => Options.bracketPattern
  | atSign => Options.atPattern
  | braces => Options.bracePattern

/-- The character in front of the attribute. -/
def opening : Marking → Char
  | brackets => '['
  | atSign => '@'
  | braces => '\x7b'

/-- What stands behind the attribute. -/
def closing : Marking → List Char
  | brackets => [']']
  | atSign => []
  | braces => ['\x7d']

/-- An attribute with its marks. -/
def letters (m : Marking) (a : List Char) : List Char := m.opening :: (a ++ m.closing)

/-- The part of the pattern behind the opening character. -/
def second : Marking → Pattern
  | brackets => closedBy '[' ']'
  | atSign => .group 2 (.many 1 none .greedy (.set false [.category .blank false true] false))
  | braces => closedBy '\x7b' '\x7d'

/-- The expression that the text of the pattern writes down. -/
theorem expression_eq (m : Marking) :
    Options.expressionOf m.pattern = ⟨m.pattern, twoParts m.opening m.second, 2⟩ := by
  cases m <;> decide +kernel

/-- Whether a text can stand as an attribute in every marking: it is not empty and has no blanks and none of the marks
that enclose it. -/
def Fits (a : List Char) : Prop :=
  a ≠ [] ∧ ∀ c ∈ a, isBlank c = false ∧ c ≠ '[' ∧ c ≠ ']' ∧ c ≠ '\x7b' ∧ c ≠ '\x7d' ∧ c ≠ '|'

variable {a p : List Char}

theorem Fits.not_mem (ha : Fits a) : '[' ∉ a ∧ ']' ∉ a ∧ '\x7b' ∉ a ∧ '\x7d' ∉ a ∧ '|' ∉ a := by
  refine ⟨?_, ?_, ?_, ?_, ?_⟩
  all_goals
    intro h
    simpa using ha.2 _ h

theorem run_notBlank :
    (Pattern.set false [.category .blank false true] false).run = one fun c => !isBlank c := by
  rw [run_set]
  congr
  funext c
  simp [Member.has, Category.has]

/-- Behind an at sign everything up to the end is the attribute, at signs included. -/
theorem run_notBlanks (ha : Fits a) (before : List Char) (taken : List (Nat × List Char)) :
    ∃ behind, atSign.second.run finish ⟨before, a, taken⟩ = some ⟨behind, [], (2, a) :: taken⟩ := by
  have hall : ∀ c ∈ a, (!isBlank c) = true := by
    intro c hc
    rw [(ha.2 c hc).1]
    rfl
  let onward : Onward := fun q => finish ((⟨before, a, taken⟩ : Place).take q 2)
  have honward : ∀ behind, onward ⟨behind, [], taken⟩ = some ⟨behind, [], (2, a) :: taken⟩ := by
    intro behind
    have htake := take_between before a [] taken behind 2
    rw [List.append_nil] at htake
    simp only [onward]
    rw [htake, finish, run_end]
  have hdecides : Decides onward before a [] taken := by
    left
    rw [honward]
    rfl
  have hlen : 1 ≤ a.length := List.length_pos_iff.mpr ha.1
  have hrun := run_many run_notBlank hall (Stops.nil _) hlen hdecides
  rw [honward, List.append_nil] at hrun
  refine ⟨a.reverse ++ before, ?_⟩
  rw [second, Pattern.run]
  exact hrun

/-! ## Fields -/

/-- A field without the opening character is a selector. -/
theorem parts_selector (m : Marking) (hp : m.opening ∉ p) :
    (Options.expressionOf m.pattern).parts? p = some (unlessEmpty p, none) := by
  rw [expression_eq]
  exact parts_first rfl hp

/-- A field with the opening character behind its selector has the attribute. -/
theorem parts_attribute (m : Marking) (hp : m.opening ∉ p) (ha : Fits a) :
    (Options.expressionOf m.pattern).parts? (p ++ m.letters a) = some (unlessEmpty p, some a) := by
  obtain ⟨hopen, hclose, hbrace, hbrace', -⟩ := ha.not_mem
  rw [expression_eq]
  cases m with
  | brackets => exact parts_closedBy rfl hp ha.1 hopen hclose
  | braces => exact parts_closedBy rfl hp ha.1 hbrace hbrace'
  | atSign =>
    rw [letters, closing, List.append_nil]
    exact parts_both rfl hp (run_notBlanks ha)

/-- An attribute with its marks has no blank. -/
theorem isBlank_letters (m : Marking) (ha : Fits a) : ∀ c ∈ m.letters a, isBlank c = false := by
  have hinner : ∀ c ∈ a, isBlank c = false := fun c hc => (ha.2 c hc).1
  rw [letters]
  refine List.forall_mem_cons.mpr ⟨?_, List.forall_mem_append.mpr ⟨hinner, ?_⟩⟩
  · cases m <;> decide
  · cases m <;> simp [closing] <;> decide

theorem bar_not_mem_letters (m : Marking) (ha : Fits a) : '|' ∉ m.letters a := by
  rw [letters, List.mem_cons, List.mem_append]
  rintro (h | h | h)
  · revert h
    cases m <;> decide
  · exact ha.not_mem.2.2.2.2 h
  · revert h
    cases m <;> decide

end Marking

/-! ## Queries -/

/-- A query that can be written in every marking: a selector, which may be empty, perhaps an attribute, and filters. -/
structure MarkedQuery where
  selector : String
  part : Option String
  /-- What stands behind the field. -/
  filters : String
  trim_selector : trim selector.toList = selector.toList
  not_mem_selector : ∀ c ∈ selector.toList, c ≠ '[' ∧ c ≠ '@' ∧ c ≠ '\x7b' ∧ c ≠ '|'
  part_fits : ∀ a ∈ part, Marking.Fits a.toList
  filters_begin : ∀ c s, filters.toList = c :: s → c = '|'

namespace MarkedQuery
variable (w : MarkedQuery)

/-- The selector and the attribute. -/
def fieldLetters (m : Marking) : List Char := w.selector.toList ++ w.part.elim [] fun a => m.letters a.toList

/-- The query as it is written in a marking. -/
def text (m : Marking) : String := String.ofList (w.fieldLetters m ++ w.filters.toList)

/-- The steps that the filters are, where they are known. -/
def steps (r : Registry) : List Step := r.bind (invocationsOf (pieces '|' w.filters.toList).tail)

theorem opening_not_mem (m : Marking) : m.opening ∉ w.selector.toList := by
  intro h
  cases m with
  | brackets => exact (w.not_mem_selector _ h).1 rfl
  | atSign => exact (w.not_mem_selector _ h).2.1 rfl
  | braces => exact (w.not_mem_selector _ h).2.2.1 rfl

theorem bar_not_mem_fieldLetters (m : Marking) : '|' ∉ w.fieldLetters m := by
  rw [fieldLetters, List.mem_append]
  rintro (h | h)
  · exact (w.not_mem_selector _ h).2.2.2 rfl
  · cases ha : w.part with
    | none => simp [ha] at h
    | some a =>
      rw [ha] at h
      exact m.bar_not_mem_letters (w.part_fits a ha) h

theorem trim_fieldLetters (m : Marking) : trim (w.fieldLetters m) = w.fieldLetters m := by
  rw [fieldLetters]
  cases ha : w.part with
  | none => rw [Option.elim_none, List.append_nil, w.trim_selector]
  | some a => exact trim_append_of_not_blank w.trim_selector (m.isBlank_letters (w.part_fits a ha))

/-- The pattern of a marking takes a field apart into what was written. -/
theorem parts_fieldLetters (m : Marking) :
    (Options.expressionOf m.pattern).parts? (w.fieldLetters m)
      = some (unlessEmpty w.selector.toList, w.part.map String.toList) := by
  rw [fieldLetters]
  cases ha : w.part with
  | none =>
    rw [Option.elim_none, List.append_nil]
    exact m.parts_selector (w.opening_not_mem m)
  | some a => exact m.parts_attribute (w.opening_not_mem m) (w.part_fits a ha)

theorem filled_selector :
    filled? (unlessEmpty w.selector.toList) = if w.selector = "" then none else some w.selector := by
  by_cases h : w.selector = ""
  · rw [if_pos h, h]
    rfl
  · have hne : w.selector.toList ≠ [] := by simpa using h
    rw [if_neg h, filled_unlessEmpty, filled_some hne w.trim_selector]

theorem filled_part : filled? (w.part.map String.toList) = w.part := by
  cases ha : w.part with
  | none => rfl
  | some a =>
    obtain ⟨hne, hplain⟩ := w.part_fits a ha
    exact filled_some hne (trim_of_not_blank fun c hc => (hplain c hc).1)

/-- The field is the first piece, and the filters are the others. -/
theorem pieces_text (m : Marking) :
    pieces '|' (w.text m).toList = w.fieldLetters m :: (pieces '|' w.filters.toList).tail := by
  rw [text, String.toList_ofList, pieces_behind (w.bar_not_mem_fieldLetters m) w.filters_begin, w.trim_fieldLetters]

end MarkedQuery

/-- The standard dialect with filters, and with attributes in a marking. -/
def Registry.marked (r : Registry) (m : Marking) : Dialect :=
  { Options.standardDialect with filters := r, selectorPattern := Options.expressionOf m.pattern }

/-- Whatever was asked for before, a query is read in every marking as the selector, the attribute and the steps that it
has in any other. -/
theorem Registry.ask_marked (r : Registry) (w : MarkedQuery) (m : Marking) (earlier : List String) :
    ((r.marked m).ask ((r.marked m).askAll earlier) (w.text m)).1.map (·.query)
      = .ok ⟨if w.selector = "" then none else some w.selector, w.part, w.steps r, w.text m⟩ := by
  have hdialect : r.marked m = ⟨r, Options.expressionOf m.pattern, bar, ":"⟩ := by
    rw [marked, filterSeparator_eq]
    rfl
  have hgroups : (Options.expressionOf m.pattern).groups = 2 := by rw [m.expression_eq]
  have hread := Dialect.read_of_parts (r := r) hgroups (w.text m) (w.pieces_text m) (w.parts_fieldLetters m)
  rw [((r.marked m).askAll_sound earlier).ask_query, hdialect, hread, w.filled_selector, w.filled_part]
  rfl

/-- An attribute with an at sign in it, and marks among the filters, which stand for themselves there. -/
def sampleMarked : MarkedQuery where
  selector := "li > a.x"
  part := some "data-@id"
  filters := "|trim| prefix:'[@' |"
  trim_selector := by decide
  not_mem_selector := by simp
  part_fits := by
    rintro _ ⟨⟩
    exact ⟨by decide, by simp [isBlank]⟩
  filters_begin := by
    intro c s h
    exact (List.cons.inj h).1.symm

theorem Registry.ask_marked_sample :
    (sampleMarked.text .brackets = "li > a.x[data-@id]|trim| prefix:'[@' |"
      ∧ sampleMarked.text .atSign = "li > a.x@data-@id|trim| prefix:'[@' |"
      ∧ sampleMarked.text .braces = "li > a.x\x7bdata-@id\x7d|trim| prefix:'[@' |")
      ∧ (sampleMarked.steps Filter.standard).map Step.invocation = [⟨"trim", []⟩, ⟨"prefix", ["[@"]⟩]
      ∧ ∀ m, ((Filter.standard.marked m).ask ((Filter.standard.marked m).askAll ["a | trim"]) (sampleMarked.text m)).1.map
          (·.query) = .ok ⟨some "li > a.x", some "data-@id", sampleMarked.steps Filter.standard, sampleMarked.text m⟩ :=
  ⟨⟨by decide, by decide, by decide⟩, by decide,
    fun m => Registry.ask_marked Filter.standard sampleMarked m ["a | trim"]⟩

end Harvest
