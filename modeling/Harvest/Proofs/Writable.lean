import Harvest.Proofs.Quoting

/-
  Which invocations can be written at all, with a colon as the separator.

  A cell is a quotation, which may be missing, and what stands behind it. Only the quotation can hold colons, and it lacks
  the quote that closes it. So up to its last colon a cell lacks one of the quotes (`Writable`); every step of the reader
  keeps that, also where a quotation is opened once more or is never closed (`writable_of_mem_cellsFrom`). The other way
  round, a text with colons is written with its front in quotes, up to the last colon. A text without colons is written as
  it is, unless a quote is the first thing in it, which then stands in quotes of the other kind (`exists_inscription`).
    1. `exists_cells_iff` — cells are writable texts, any number of them but none.
    2. `exists_read_iff` — an invocation can be written exactly when its name is trimmed and the name and each argument
       lack a quote up to their last colon.
-/
namespace Harvest.Text

/-- A text up to its last `c`, and with it; nothing where there is none. -/
def throughLast (c : Char) (s : List Char) : List Char := s.rdropWhile (· != c)

variable {c d : Char} {s t : List Char}

theorem throughLast_begins (c : Char) (s : List Char) : throughLast c s <+: s := List.rdropWhile_prefix _ s

theorem throughLast_concat_self (c : Char) (s : List Char) : throughLast c (s ++ [c]) = s ++ [c] :=
  List.rdropWhile_concat_neg _ s c (by simp)

theorem throughLast_concat_of_ne (h : d ≠ c) (s : List Char) : throughLast c (s ++ [d]) = throughLast c s :=
  List.rdropWhile_concat_pos _ s d (by simpa using h)

/-- Behind the last `c` there is no other. -/
theorem exists_throughLast (c : Char) (s : List Char) : ∃ t, c ∉ t ∧ s = throughLast c s ++ t := by
  refine ⟨s.rtakeWhile (· != c), ?_, List.rdropWhile_append_rtakeWhile.symm⟩
  intro h
  simpa using List.mem_rtakeWhile_imp h

/-- The last `c` stands last in what goes up to it. -/
theorem mem_throughLast (h : throughLast c s ≠ []) : c ∈ throughLast c s := by
  have hlast := List.rdropWhile_last_not (· != c) s h
  have heq : (throughLast c s).getLast h = c := by simpa [throughLast] using hlast
  have hmem := List.getLast_mem h
  rwa [heq] at hmem

theorem throughLast_append (h : c ∉ t) (s : List Char) : throughLast c (s ++ t) = throughLast c s := by
  induction t using List.reverseRecOn with
  | nil => rw [List.append_nil]
  | append_singleton t d ih =>
    have hd : d ≠ c := by
      rintro rfl
      exact h (by simp)
    have ht : c ∉ t := fun hc => h (List.mem_append_left [d] hc)
    rw [← List.append_assoc, throughLast_concat_of_ne hd, ih ht]

/-- What is written in front of a text changes nothing behind that. -/
theorem throughLast_suffix (w t : List Char) : throughLast c t <:+ throughLast c (w ++ t) := by
  induction t using List.reverseRecOn with
  | nil => exact List.nil_suffix
  | append_singleton t d ih =>
    rw [← List.append_assoc]
    by_cases hd : d = c
    · subst hd
      rw [throughLast_concat_self, throughLast_concat_self, List.append_assoc]
      exact List.suffix_append w _
    · rwa [throughLast_concat_of_ne hd, throughLast_concat_of_ne hd]

/-- Trimming adds nothing to a text, up to a last character that is no blank. -/
theorem throughLast_trim (hc : isBlank c = false) (h : d ∈ throughLast c (trim s)) : d ∈ throughLast c s := by
  obtain ⟨w, hw, hs⟩ := exists_trimRight (trimLeft s)
  obtain ⟨w', -, hs'⟩ := exists_trimLeft s
  have hbehind : throughLast c (trimLeft s) = throughLast c (trim s) := by
    conv_lhs => rw [hs]
    exact throughLast_append (not_mem_of_blank hc hw) _
  have hfront : throughLast c (trimLeft s) <:+ throughLast c s := by
    conv_rhs => rw [hs']
    exact throughLast_suffix w' _
  rw [← hbehind] at h
  exact hfront.subset h

end Harvest.Text

namespace Harvest.Invocation
open Text

/-- Whether a text lacks one of the quotes up to its last colon. -/
def Writable (s : List Char) : Prop := LacksQuote (throughLast ':' s)

variable {s t r : List Char}

/-! ## What is read is writable -/

/-- What the reader keeps up: the cell under way is writable, and inside a quotation it lacks the quote that closes it. -/
def Sound : Option Char → List Char → Prop
  | none, cell => Writable cell.reverse
  | some q, cell => isQuote q = true ∧ q ∉ cell

theorem writable_of_lacksQuote (h : LacksQuote s) : Writable s := LacksQuote.mono h (throughLast_begins ':' s).subset

theorem writable_nil : Writable [] := ⟨'"', rfl, List.not_mem_nil⟩

/-- Outside quotations no colon is put into a cell. -/
theorem Writable.concat {c : Char} (h : Writable s) (hc : c ≠ ':') : Writable (s ++ [c]) := by
  rw [Writable, throughLast_concat_of_ne hc]
  exact h

theorem Sound.writable {quote : Option Char} {cell : List Char} (h : Sound quote cell) : Writable cell.reverse := by
  cases quote with
  | none => exact h
  | some q => exact writable_of_lacksQuote ⟨q, h.1, fun hq => h.2 (List.mem_reverse.mp hq)⟩

theorem writable_of_mem_cellsFrom : ∀ (s : List Char) (quote : Option Char) (cell : List Char), Sound quote cell →
    ∀ t ∈ cellsFrom [':'] quote 0 cell s, Writable t := by
  intro s
  induction s with
  | nil =>
    intro quote cell h t ht
    rw [cellsFrom, List.mem_singleton] at ht
    rw [ht]
    exact h.writable
  | cons c s ih =>
    intro quote cell h t ht
    cases quote with
    | some q =>
      rw [cellsFrom] at ht
      split at ht
      · -- the quotation is closed, and the cell stays open
        exact ih none cell h.writable t ht
      · next hne =>
        refine ih (some q) (c :: cell) ⟨h.1, ?_⟩ t ht
        simp [Ne.symm hne, h.2]
    | none =>
      rw [cellsFrom, startsWith_single] at ht
      split at ht
      · next hopen =>
        -- a quotation is opened, for the first time or once more: what stood before is dropped
        have hquote : isQuote c = true := (Bool.and_eq_true_iff.mp hopen).1
        exact ih (some c) [] ⟨hquote, List.not_mem_nil⟩ t ht
      · split at ht
        · rcases List.mem_cons.mp ht with rfl | ht
          · exact h
          · exact ih none [] writable_nil t ht
        · next hcolon =>
          have hc : c ≠ ':' := by simpa [eq_comm] using hcolon
          refine ih none (c :: cell) ?_ t ht
          rw [Sound, List.reverse_cons]
          exact Writable.concat h hc

/-! ## What is writable can be written -/

/-- Behind something that is no blank a quote opens nothing. -/
theorem noOpening_of_not_blank {cell : List Char} (h : allBlank cell = false) (s : List Char) : NoOpening cell s := by
  intro u _ _ _ _
  rw [allBlank, List.all_append, ← allBlank, ← allBlank, h, Bool.and_false]

/-- A quotation that is not blank, with a text without colons behind it. -/
theorem cellsFrom_quotation_bare (a : Quotation) (hblank : allBlank a.text = false) (ht : ':' ∉ t) (r : List Char) :
    cellsFrom [':'] none 0 [] (a.letters ++ t ++ r) = cellsFrom [':'] none 0 (a.text ++ t).reverse r := by
  have hcell : allBlank a.text.reverse = false := by rwa [allBlank_reverse]
  rw [List.append_assoc, cellsFrom_quotation, cellsFrom_bare (clearOf_single ht) (noOpening_of_not_blank hcell t),
    List.reverse_append]

theorem exists_other_quote (c : Char) : ∃ q, isQuote q = true ∧ q ≠ c := by
  by_cases h : c = '"'
  · exact ⟨'\'', rfl, by rw [h]; decide⟩
  · exact ⟨'"', rfl, Ne.symm h⟩

/-- Whether a text can be written so that it is taken as a cell, whatever stands behind. -/
def Inscribed (s : List Char) : Prop :=
  ∃ w, ∀ r, cellsFrom [':'] none 0 [] (w ++ r) = cellsFrom [':'] none 0 s.reverse r

/-- Without colons nothing has to be kept from being cut, but a quote in front would open a quotation. -/
theorem inscribed_of_colon_not_mem (hs : ':' ∉ s) : Inscribed s := by
  by_cases hquote : ∃ c v, trimLeft s = c :: v ∧ isQuote c = true
  · -- the blanks and the quote in front go into quotes of the other kind
    obtain ⟨c, v, hcv, hc⟩ := hquote
    obtain ⟨q, hq, hqc⟩ := exists_other_quote c
    obtain ⟨w, hw, hwv⟩ := exists_trimLeft s
    rw [hcv] at hwv
    have hqw : q ∉ w := not_mem_of_blank (isBlank_of_isQuote hq) hw
    have hblank : allBlank (w ++ [c]) = false := by simp [allBlank, isBlank_of_isQuote hc]
    have hv : ':' ∉ v := fun hmem => hs (by rw [hwv]; simp [hmem])
    let a : Quotation := ⟨w ++ [c], q, hq, by simp [hqw, hqc]⟩
    have htext : a.text ++ v = s := by rw [hwv, List.append_assoc, List.singleton_append]
    refine ⟨a.letters ++ v, fun r => ?_⟩
    rw [cellsFrom_quotation_bare a hblank hv, htext]
  · have hopen : NoOpening [] s := by
      refine noOpening_of_trimLeft fun c v hcv => ?_
      rw [← Bool.not_eq_true]
      exact fun hc => hquote ⟨c, v, hcv, hc⟩
    refine ⟨s, fun r => ?_⟩
    rw [cellsFrom_bare (clearOf_single hs) hopen, List.append_nil]

theorem exists_inscription (h : Writable s) : Inscribed s := by
  obtain ⟨t, ht, hs⟩ := exists_throughLast ':' s
  by_cases hfront : throughLast ':' s = []
  · refine inscribed_of_colon_not_mem ?_
    rwa [hs, hfront, List.nil_append]
  · -- a colon is no blank, so behind the quotation no other is opened
    obtain ⟨q, hq, hmem⟩ := h
    have hblank : allBlank (throughLast ':' s) = false := by
      rw [← Bool.not_eq_true, allBlank, List.all_eq_true]
      exact fun hall => absurd (hall ':' (mem_throughLast hfront)) (by decide)
    let a : Quotation := ⟨throughLast ':' s, q, hq, hmem⟩
    refine ⟨a.letters ++ t, fun r => ?_⟩
    rw [cellsFrom_quotation_bare a hblank ht, ← hs]

/-- Writable texts can be written side by side, by induction on their number. -/
theorem exists_cells {ss : List (List Char)} (hne : ss ≠ []) (h : ∀ s ∈ ss, Writable s) : ∃ w, cells [':'] w = ss := by
  induction ss with
  | nil => exact absurd rfl hne
  | cons s ss ih =>
    obtain ⟨hs, hrest⟩ := List.forall_mem_cons.mp h
    obtain ⟨w, hw⟩ := exists_inscription hs
    by_cases hnil : ss = []
    · refine ⟨w, ?_⟩
      have hlast := hw []
      rw [List.append_nil] at hlast
      rw [cells, hlast, cellsFrom, List.reverse_reverse, hnil]
    · obtain ⟨w', hw'⟩ := ih hnil hrest
      refine ⟨w ++ ':' :: w', ?_⟩
      have hcut := cellsFrom_separator (c := ':') (w := []) rfl s.reverse w'
      rw [cells, hw]
      refine hcut.trans ?_
      rw [List.reverse_reverse, ← cells, hw']

/-- The texts that cells can be. -/
theorem exists_cells_iff {ss : List (List Char)} : (∃ w, cells [':'] w = ss) ↔ ss ≠ [] ∧ ∀ s ∈ ss, Writable s := by
  constructor
  · rintro ⟨w, rfl⟩
    exact ⟨cellsFrom_ne_nil w none 0 [], writable_of_mem_cellsFrom w none [] writable_nil⟩
  · rintro ⟨hne, h⟩
    exact exists_cells hne h

/-! ## Invocations -/

/-- Trimming a writable text leaves one. -/
theorem Writable.trim (h : Writable s) : Writable (trim s) :=
  LacksQuote.mono h fun _ => throughLast_trim (by decide)

/-- A name and arguments can be written down as an invocation exactly when the name is trimmed and each of them lacks a
quote up to its last colon. -/
theorem exists_read_iff (name : String) (args : List String) :
    (∃ text, read ":" text = ⟨name, args⟩) ↔
      Text.trim name.toList = name.toList ∧ ∀ s ∈ name :: args, LacksQuote (throughLast ':' s.toList) := by
  constructor
  · rintro ⟨text, hread⟩
    obtain ⟨hne, hwritable⟩ := exists_cells_iff.mp ⟨text.toList, rfl⟩
    obtain ⟨c, cs, hcells⟩ := List.exists_cons_of_ne_nil hne
    rw [hcells] at hwritable
    have hcolon : read ":" text = _ := read_of_cells hcells
    rw [hcolon, Invocation.mk.injEq] at hread
    obtain ⟨rfl, rfl⟩ := hread
    refine ⟨by rw [String.toList_ofList, trim_trim], ?_⟩
    intro s hs
    rcases List.mem_cons.mp hs with rfl | hs
    · rw [String.toList_ofList]
      exact Writable.trim (hwritable c List.mem_cons_self)
    · obtain ⟨a, ha, rfl⟩ := List.mem_map.mp hs
      rw [String.toList_ofList]
      exact hwritable a (List.mem_cons_of_mem c ha)
  · rintro ⟨htrim, h⟩
    have hwritable : ∀ s ∈ name.toList :: args.map String.toList, Writable s := by
      intro s hs
      rw [← List.map_cons] at hs
      obtain ⟨a, ha, rfl⟩ := List.mem_map.mp hs
      exact h a ha
    obtain ⟨w, hw⟩ := exists_cells (List.cons_ne_nil _ _) hwritable
    rw [← String.toList_ofList (l := w)] at hw
    have hcolon : read ":" (String.ofList w) = _ := read_of_cells hw
    exact ⟨String.ofList w, by rw [hcolon]; simp [htrim]⟩

end Harvest.Invocation
