import Harvest.Proofs.Writable

/-
  What stands behind a quotation in the same cell.

  A quotation is opened by a quote that has nothing but blanks before it in the cell. Those blanks need not stand at the
  start of what is written: they may be the text of a quotation that was closed. So behind a blank quotation another one
  is opened by the first quote, and what stood before it is dropped (`Reopens`). Behind any other quotation, and where
  no quote follows on the blanks, all that stands behind it is taken as it is.
    1. `cellsFrom_literal`, `cellsFrom_reopened` — what is read behind the text of a quotation in either case.
    2. `read_behind_quotation` — the one argument that a quotation and a text without colons behind it make.
    3. `quotation_lost` — it is not always the text in the quotes and what stands behind it.
-/
namespace Harvest.Invocation
open Text

variable {x t b r : List Char} {q : Char}

/-- Whether behind a quotation with the text `x` a quote in `t` opens another one: only blanks stand before it, in the
first quotation and behind it. -/
def Reopens (x t : List Char) : Prop := ∃ b q r, t = b ++ q :: r ∧ isQuote q = true ∧ allBlank (x ++ b) = true

theorem noOpening_iff_not_reopens : NoOpening x.reverse t ↔ ¬Reopens x t := by
  have hblank : ∀ b, allBlank (b.reverse ++ x.reverse) = allBlank (x ++ b) := by
    intro b
    rw [← List.reverse_append, allBlank_reverse]
  constructor
  · rintro h ⟨b, q, r, ht, hq, hb⟩
    have hfalse := h b q r ht hq
    rw [hblank, hb] at hfalse
    cases hfalse
  · intro h b q r ht hq
    rw [hblank, ← Bool.not_eq_true]
    exact fun hb => h ⟨b, q, r, ht, hq, hb⟩

/-- Where no other quotation is opened, a text without colons is the rest of the last cell. -/
theorem cellsFrom_literal (ht : ':' ∉ t) (h : ¬Reopens x t) : cellsFrom [':'] none 0 x.reverse t = [x ++ t] := by
  have hbare := cellsFrom_bare (clearOf_single ht) (noOpening_iff_not_reopens.mpr h) (r := [])
  rw [List.append_nil] at hbare
  rw [hbare, cellsFrom, List.reverse_append, List.reverse_reverse, List.reverse_reverse]

/-- Where another quotation is opened, the cell begins anew with it. -/
theorem cellsFrom_reopened (hq : isQuote q = true) (hb : allBlank (x ++ b) = true) (hcolon : ':' ∉ b) :
    cellsFrom [':'] none 0 x.reverse (b ++ q :: r) = cellsFrom [':'] none 0 [] (q :: r) := by
  have hcell : allBlank (b.reverse ++ x.reverse) = true := by
    rwa [← List.reverse_append, allBlank_reverse]
  have hblank : ∀ c ∈ b, isBlank c = true := by
    intro c hc
    exact List.all_eq_true.mp hb c (List.mem_append_right x hc)
  -- blanks are no quotes, so nothing is opened before `q`
  have hopen : NoOpening x.reverse b := by
    intro u c v hucv hc
    have hmem : c ∈ b := by simp [hucv]
    have hcblank := hblank c hmem
    rw [isBlank_of_isQuote hc] at hcblank
    cases hcblank
  have hfirst : (isQuote q && allBlank (b.reverse ++ x.reverse)) = true := by rw [hq, hcell]; rfl
  have hagain : (isQuote q && allBlank []) = true := by rw [hq]; rfl
  rw [cellsFrom_bare (clearOf_single hcolon) hopen, cellsFrom, if_pos hfirst, cellsFrom, if_pos hagain]

/-- A text without colons makes one cell, inside a quotation or not, and nothing is written twice. -/
theorem exists_cellsFrom_single (ht : ':' ∉ t) : ∀ (quote : Option Char) (cell : List Char),
    ∃ s, cellsFrom [':'] quote 0 cell t = [s] ∧ s.length ≤ cell.length + t.length := by
  induction t with
  | nil =>
    intro quote cell
    exact ⟨cell.reverse, by rw [cellsFrom], by simp⟩
  | cons c t ih =>
    intro quote cell
    obtain ⟨hc, ht⟩ := not_or.mp (fun h => ht (List.mem_cons.mpr h))
    have hlonger : ∀ {quote : Option Char} {cell' : List Char}, cell'.length ≤ cell.length + 1 →
        ∃ s, cellsFrom [':'] quote 0 cell' t = [s] ∧ s.length ≤ cell.length + (c :: t).length := by
      intro quote cell' hcell
      obtain ⟨s, hs, hlength⟩ := ih ht quote cell'
      refine ⟨s, hs, hlength.trans ?_⟩
      rw [List.length_cons]
      omega
    cases quote with
    | some q =>
      rw [cellsFrom]
      split
      · exact hlonger (by omega)
      · exact hlonger (by simp)
    | none =>
      rw [cellsFrom, startsWith_single, decide_eq_false hc]
      split
      · exact hlonger (by simp)
      · rw [if_neg Bool.false_ne_true]
        exact hlonger (by simp)

/-- In the last cell, too, nothing but the second quotation and what stands behind it is left. The quote itself is gone,
so this is not all that was written. -/
theorem cellsFrom_reopened_ne (hq : isQuote q = true) (hb : allBlank (x ++ b) = true) (ht : ':' ∉ b ++ q :: r) :
    cellsFrom [':'] none 0 x.reverse (b ++ q :: r) ≠ [x ++ (b ++ q :: r)] := by
  have hcolon : ':' ∉ b := fun h => ht (List.mem_append_left _ h)
  have hrest : ':' ∉ r := fun h => ht (List.mem_append_right b (List.mem_cons_of_mem q h))
  have hopen : (isQuote q && allBlank []) = true := by rw [hq]; rfl
  obtain ⟨s, hs, hlength⟩ := exists_cellsFrom_single hrest (some q) []
  rw [cellsFrom_reopened hq hb hcolon, cellsFrom, if_pos hopen, hs]
  intro h
  have hall := congrArg List.length (List.singleton_inj.mp h)
  simp only [List.length_append, List.length_cons, List.length_nil] at hall hlength
  omega

/-! ## Invocations with one argument -/

/-- A name, a colon and an argument. -/
def call (name : String) (argument : List Char) : String := String.ofList (name.toList ++ ':' :: argument)

/-- Behind a name without colons that begins with no quote, the cells of the argument are the arguments. -/
theorem read_call {name : String} (hname : ':' ∉ name.toList)
    (hquote : ∀ c r, trimLeft name.toList = c :: r → isQuote c = false) (argument : List Char) :
    read ":" (call name argument)
      = ⟨trimmed name, (cellsFrom [':'] none 0 [] argument).map String.ofList⟩ := by
  have hcut := cellsFrom_separator (c := ':') (w := []) rfl name.toList.reverse argument
  have hcells : cells ":".toList (call name argument).toList = name.toList :: cellsFrom [':'] none 0 [] argument := by
    have hbare := cellsFrom_bare (clearOf_single hname) (noOpening_of_trimLeft hquote) (r := ':' :: argument)
    have htext : (call name argument).toList = name.toList ++ ':' :: argument := String.toList_ofList
    rw [htext, cells]
    refine hbare.trans ?_
    rw [List.append_nil]
    refine hcut.trans ?_
    rw [List.reverse_reverse]
  exact read_of_cells hcells

/-- A quotation and a text without colons behind it make one argument. It is the text in the quotes and the text behind
them, just as they are, unless a quote behind nothing but blanks opens another quotation; then everything before that
quote is lost, and the argument is the one that the text from the quote on makes. -/
theorem read_behind_quotation {name : String} (hname : ':' ∉ name.toList)
    (hquote : ∀ c r, trimLeft name.toList = c :: r → isQuote c = false) (a : Quotation) {t : List Char} (ht : ':' ∉ t) :
    (∃ s, read ":" (call name (a.letters ++ t)) = ⟨trimmed name, [String.ofList s]⟩) ∧
      (read ":" (call name (a.letters ++ t)) = ⟨trimmed name, [String.ofList (a.text ++ t)]⟩ ↔ ¬Reopens a.text t) ∧
      ∀ b q r, t = b ++ q :: r → isQuote q = true → allBlank (a.text ++ b) = true →
        read ":" (call name (a.letters ++ t)) = read ":" (call name (q :: r)) := by
  have hread : ∀ argument, read ":" (call name argument) = _ := read_call hname hquote
  rw [hread, cellsFrom_quotation]
  refine ⟨?_, ⟨?_, ?_⟩, ?_⟩
  · obtain ⟨s, hs, -⟩ := exists_cellsFrom_single ht none a.text.reverse
    exact ⟨s, by rw [hs]; rfl⟩
  · rintro h ⟨b, q, r, rfl, hq, hb⟩
    obtain ⟨s, hs, -⟩ := exists_cellsFrom_single ht none a.text.reverse
    rw [hs, Invocation.mk.injEq] at h
    have heq : s = a.text ++ (b ++ q :: r) := String.ofList_injective (List.singleton_inj.mp h.2)
    rw [heq] at hs
    exact cellsFrom_reopened_ne hq hb ht hs
  · intro h
    rw [cellsFrom_literal ht h]
    rfl
  · rintro b q r rfl hq hb
    have hcolon : ':' ∉ b := fun h => ht (List.mem_append_left _ h)
    rw [hread, cellsFrom_reopened hq hb hcolon]

/-- Behind a quotation that is not blank a quote is a character like any other. -/
theorem read_behind_quotation_sample :
    ':' ∉ "f".toList ∧ (∀ c r, trimLeft "f".toList = c :: r → isQuote c = false) ∧ ':' ∉ "\"x\"".toList
      ∧ read ":" "f:'a'\"x\"" = ⟨"f", ["a\"x\""]⟩ := by
  have hname : ':' ∉ "f".toList := by decide
  have hquote : ∀ c r, trimLeft "f".toList = c :: r → isQuote c = false := by
    intro c r h
    rw [← (List.cons.inj h).1]
    decide
  have ht : ':' ∉ "\"x\"".toList := by decide
  let a : Quotation := ⟨"a".toList, '\'', by decide, by decide⟩
  have hliteral : ¬Reopens a.text "\"x\"".toList :=
    noOpening_iff_not_reopens.mp (noOpening_of_not_blank (by decide) _)
  exact ⟨hname, hquote, ht, (read_behind_quotation hname hquote a ht).2.1.mpr hliteral⟩

/-- A quote can open a quotation elsewhere than at the start of an argument: behind a blank one, whose text is lost. -/
theorem quotation_lost :
    ¬∀ (a : Quotation) (t : List Char), ':' ∉ t →
      read ":" (call "f" (a.letters ++ t)) = ⟨"f", [String.ofList (a.text ++ t)]⟩ := by
  intro h
  have hblank := h ⟨"  ".toList, '\'', by decide, by decide⟩ "\"x\"".toList (by decide)
  revert hblank
  decide

end Harvest.Invocation
