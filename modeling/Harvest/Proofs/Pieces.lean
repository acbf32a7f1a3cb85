import Harvest.Text.Blank
import Harvest.Text.Search
import Mathlib.Data.List.DropRight
import Mathlib.Data.List.Infix

/-
  Trimmed texts, and texts cut at a character.

  Blanks at either end of a text do not count for `trim` (`trim_append_left`, `trim_append_right`), and it does not matter
  at which end trimming begins (`trimLeft_trimRight`). A text is cut at the first occurrence of a character and then
  further on (`cutAt_append`). `pieces c s` are the trimmed pieces of a text; what is written behind one more
  occurrence adds its own pieces (`pieces_between`), and blanks at the ends do not count for them either
  (`pieces_append_left`, `pieces_append_right`).
-/
namespace Harvest.Text

variable {s w : List Char}

/-! ## Trimming -/

theorem trimLeft_append (hw : ∀ c ∈ w, isBlank c = true) (s : List Char) : trimLeft (w ++ s) = trimLeft s :=
  List.dropWhile_append_of_pos hw

theorem trimRight_append (hw : ∀ c ∈ w, isBlank c = true) (s : List Char) : trimRight (s ++ w) = trimRight s := by
  have hr : ∀ c ∈ w.reverse, isBlank c = true := fun c hc => hw c (List.mem_reverse.mp hc)
  rw [trimRight, List.reverse_append, List.dropWhile_append_of_pos hr, trimRight]

theorem space_blank : ∀ c ∈ [' '], isBlank c = true := by simp [isBlank]

theorem trimLeft_append_of_ne_nil (h : trimLeft s ≠ []) (t : List Char) : trimLeft (s ++ t) = trimLeft s ++ t := by
  have happend : trimLeft (s ++ t) = if (trimLeft s).isEmpty then trimLeft t else trimLeft s ++ t :=
    List.dropWhile_append
  rw [happend, if_neg fun he => h (List.isEmpty_iff.mp he)]

theorem trimLeft_suffix (s : List Char) : trimLeft s <:+ s := List.dropWhile_suffix isBlank

theorem trimRight_begins (s : List Char) : trimRight s <+: s := List.rdropWhile_prefix isBlank s

/-- A text is what trimming leaves and the blanks behind. -/
theorem exists_trimRight (s : List Char) : ∃ w, (∀ c ∈ w, isBlank c = true) ∧ s = trimRight s ++ w :=
  ⟨s.rtakeWhile isBlank, fun _ => List.mem_rtakeWhile_imp, List.rdropWhile_append_rtakeWhile.symm⟩

theorem exists_trimLeft (s : List Char) : ∃ w, (∀ c ∈ w, isBlank c = true) ∧ s = w ++ trimLeft s :=
  ⟨s.takeWhile isBlank, fun _ => List.mem_takeWhile_imp, List.takeWhile_append_dropWhile.symm⟩

/-- Nothing is trimmed behind exactly when no blank stands last. -/
theorem trimRight_eq_self : trimRight s = s ↔ ∀ h : s ≠ [], isBlank (s.getLast h) = false := by
  have h : trimRight s = s ↔ ∀ hs : s ≠ [], ¬isBlank (s.getLast hs) = true := List.rdropWhile_eq_self_iff
  simpa using h

theorem trimRight_trimRight (s : List Char) : trimRight (trimRight s) = trimRight s := List.rdropWhile_idempotent _ _

theorem trimLeft_trimLeft (s : List Char) : trimLeft (trimLeft s) = trimLeft s := List.dropWhile_idempotent _ _

/-- What is trimmed behind stays so when something is taken off in front. -/
theorem trimRight_eq_self_of_suffix {t : List Char} (ht : t <:+ s) (hs : trimRight s = s) : trimRight t = t := by
  rw [trimRight_eq_self] at hs ⊢
  intro h
  rw [ht.getLast h]
  exact hs (ht.ne_nil h)

/-- It does not matter which end is trimmed first. -/
theorem trimLeft_trimRight (s : List Char) : trimLeft (trimRight s) = trim s := by
  obtain ⟨w, hw, hs⟩ := exists_trimRight s
  have hkept : trimRight (trimLeft (trimRight s)) = trimLeft (trimRight s) :=
    trimRight_eq_self_of_suffix (trimLeft_suffix _) (trimRight_trimRight s)
  by_cases h : trimLeft (trimRight s) = []
  · have hblank : ∀ c ∈ s, isBlank c = true := by
      rw [hs]
      exact List.forall_mem_append.mpr ⟨List.dropWhile_eq_nil_iff.mp h, hw⟩
    rw [h, trim, trimLeft, List.dropWhile_eq_nil_iff.mpr hblank]
    rfl
  · conv_rhs => rw [trim, hs]
    rw [trimLeft_append_of_ne_nil h, trimRight_append hw, hkept]

theorem trim_append_left (hw : ∀ c ∈ w, isBlank c = true) (s : List Char) : trim (w ++ s) = trim s := by
  rw [trim, trimLeft_append hw, trim]

theorem trim_append_right (hw : ∀ c ∈ w, isBlank c = true) (s : List Char) : trim (s ++ w) = trim s := by
  rw [← trimLeft_trimRight, trimRight_append hw, trimLeft_trimRight]

theorem trim_trimLeft (s : List Char) : trim (trimLeft s) = trim s := by rw [trim, trimLeft_trimLeft, trim]

theorem trim_trimRight (s : List Char) : trim (trimRight s) = trim s := by
  rw [← trimLeft_trimRight, trimRight_trimRight, trimLeft_trimRight]

theorem trim_trim (s : List Char) : trim (trim s) = trim s := by
  rw [← trimLeft_trimRight s, trim_trimLeft, trim_trimRight, trimLeft_trimRight]

theorem trimRight_of_trim (h : trim s = s) : trimRight s = s := by
  have hr : trimRight (trim s) = trim s := trimRight_trimRight _
  rwa [h] at hr

theorem trimLeft_of_trim (h : trim s = s) : trimLeft s = s := by
  have hl : trimLeft (trim s) = trim s := by rw [← trimLeft_trimRight, trimLeft_trimLeft]
  rwa [h] at hl

theorem trim_of_ends (hl : trimLeft s = s) (hr : trimRight s = s) : trim s = s := by rw [trim, hl, hr]

/-- No blank stands first in a trimmed text. -/
theorem isBlank_of_trim {c : Char} (h : trim (c :: s) = c :: s) : isBlank c = false := by
  have hl : ∀ hs : 0 < (c :: s).length, ¬isBlank (c :: s)[0] = true :=
    List.dropWhile_eq_self_iff.mp (trimLeft_of_trim h)
  simpa using hl

theorem trimLeft_cons_of_not_blank {c : Char} (hc : isBlank c = false) (s : List Char) : trimLeft (c :: s) = c :: s := by
  rw [trimLeft, List.dropWhile_cons, if_neg (by simp [hc])]

/-- A text that is trimmed in front stays so when more is written behind it. -/
theorem trimLeft_append_eq_self (hs : s ≠ []) (h : trimLeft s = s) (t : List Char) : trimLeft (s ++ t) = s ++ t := by
  rw [trimLeft_append_of_ne_nil (by rwa [h]), h]

theorem trimRight_concat {c : Char} (hc : isBlank c = false) (s : List Char) : trimRight (s ++ [c]) = s ++ [c] := by
  rw [trimRight_eq_self]
  intro h
  rw [List.getLast_append_singleton]
  exact hc

/-- What is trimmed in front of a trimmed text is what is trimmed of the text before it. -/
theorem trimLeft_append_trimmed (h : trimLeft s = s) (t : List Char) : trimLeft (t ++ s) = trimLeft t ++ s := by
  by_cases hnil : trimLeft t = []
  · rw [hnil, trimLeft_append (List.dropWhile_eq_nil_iff.mp hnil), h, List.nil_append]
  · exact trimLeft_append_of_ne_nil hnil s

theorem trimRight_append_trimmed (h : trimRight s = s) (t : List Char) : trimRight (s ++ t) = s ++ trimRight t := by
  have hreverse : trimLeft s.reverse = s.reverse := by
    rw [← List.reverse_eq_iff]
    exact h
  have hleft : trimLeft (t.reverse ++ s.reverse) = trimLeft t.reverse ++ s.reverse :=
    trimLeft_append_trimmed hreverse t.reverse
  calc trimRight (s ++ t) = (trimLeft (t.reverse ++ s.reverse)).reverse := by rw [← List.reverse_append]; rfl
    _ = s ++ trimRight t := by rw [hleft, List.reverse_append, List.reverse_reverse]; rfl

/-- A text that is trimmed keeps its place between others. -/
theorem trim_between (hs : s ≠ []) (h : trim s = s) (p t : List Char) :
    trim (p ++ (s ++ t)) = trimLeft p ++ (s ++ trimRight t) := by
  have hkept : trimRight (trimLeft p ++ s) = trimLeft p ++ s := by
    rw [trimRight_eq_self]
    intro hne
    rw [List.getLast_append_of_ne_nil hne hs]
    exact trimRight_eq_self.mp (trimRight_of_trim h) hs
  rw [trim, trimLeft_append_trimmed (trimLeft_append_eq_self hs (trimLeft_of_trim h) t), ← List.append_assoc,
    trimRight_append_trimmed hkept, List.append_assoc]

/-- A text without blanks is trimmed. -/
theorem trim_of_not_blank (h : ∀ c ∈ s, isBlank c = false) : trim s = s := by
  refine trim_of_ends ?_ (trimRight_eq_self.mpr fun hs => h _ (List.getLast_mem hs))
  cases s with
  | nil => rfl
  | cons c s => exact trimLeft_cons_of_not_blank (h c List.mem_cons_self) s

/-- A text without blanks behind a trimmed one. -/
theorem trim_append_of_not_blank {t : List Char} (hs : trim s = s) (ht : ∀ c ∈ t, isBlank c = false) :
    trim (s ++ t) = s ++ t := by
  by_cases hnil : s = []
  · rw [hnil, List.nil_append, trim_of_not_blank ht]
  · refine trim_of_ends (trimLeft_append_eq_self hnil (trimLeft_of_trim hs) t) ?_
    rw [trimRight_eq_self]
    intro h
    by_cases htnil : t = []
    · subst htnil
      simp only [List.append_nil] at h ⊢
      exact trimRight_eq_self.mp (trimRight_of_trim hs) h
    · rw [List.getLast_append_of_ne_nil h htnil]
      exact ht _ (List.getLast_mem htnil)

theorem allBlank_reverse (s : List Char) : allBlank s.reverse = allBlank s := by rw [allBlank, List.all_reverse, allBlank]

theorem trim_eq_nil : trim s = [] ↔ allBlank s = true := by
  rw [← trimLeft_trimRight, trimLeft, List.dropWhile_eq_nil_iff, allBlank, List.all_eq_true]
  obtain ⟨w, hw, hs⟩ := exists_trimRight s
  constructor
  · intro h c hc
    rw [hs] at hc
    exact (List.mem_append.mp hc).elim (h c) (hw c)
  · intro h c hc
    refine h c ?_
    rw [hs]
    exact List.mem_append_left w hc

theorem mem_of_mem_trim {c : Char} (h : c ∈ trim s) : c ∈ s := by
  rw [← trimLeft_trimRight] at h
  have hr : c ∈ trimRight s := (trimLeft_suffix _).subset h
  exact (trimRight_begins s).subset hr

/-! ## Cutting -/

variable {c : Char}

theorem startsWith_single (c d : Char) (s : List Char) : startsWith [c] (d :: s) = decide (c = d) := by
  by_cases h : c = d
  · simp [startsWith, dropText?, h]
  · simp [startsWith, dropText?, h]

theorem cutFrom_cons (c d : Char) (piece s : List Char) :
    cutFrom [c] 0 piece (d :: s) = if c = d then piece.reverse :: cutFrom [c] 0 [] s else cutFrom [c] 0 (d :: piece) s := by
  rw [cutFrom, startsWith_single]
  simp

/-- Up to the first occurrence of the character nothing is cut. -/
theorem cutFrom_append {u : List Char} (hu : c ∉ u) (piece r : List Char) :
    cutFrom [c] 0 piece (u ++ r) = cutFrom [c] 0 (u.reverse ++ piece) r := by
  induction u generalizing piece with
  | nil => rfl
  | cons d u ih =>
    obtain ⟨hd, hu⟩ := not_or.mp (fun h => hu (List.mem_cons.mpr h))
    rw [List.cons_append, cutFrom_cons, if_neg hd, ih hu]
    simp

theorem cutAt_append {u : List Char} (hu : c ∉ u) (v : List Char) : cutAt c (u ++ c :: v) = u :: cutAt c v := by
  have h := cutFrom_append hu [] (c :: v)
  rw [cutAt, cut, h, cutFrom_cons, if_pos rfl, List.append_nil, List.reverse_reverse]
  rfl

theorem cutAt_of_not_mem {u : List Char} (hu : c ∉ u) : cutAt c u = [u] := by
  have h := cutFrom_append hu [] []
  rw [List.append_nil, List.append_nil] at h
  rw [cutAt, cut, h, cutFrom, List.reverse_reverse]

/-- A text without the character, or one that is cut at it. -/
theorem cutAt_cases (c : Char) (s : List Char) : c ∉ s ∨ ∃ u v, s = u ++ c :: v ∧ c ∉ u := by
  by_cases h : c ∈ s
  · exact .inr (List.eq_append_cons_of_mem h)
  · exact .inl h

/-- No piece holds the character at which the text was cut. -/
theorem not_mem_of_mem_cutAt {t : List Char} (h : t ∈ cutAt c s) : c ∉ t := by
  induction hn : s.length using Nat.strong_induction_on generalizing s with
  | _ n ih =>
    rcases cutAt_cases c s with hs | ⟨u, v, rfl, hu⟩
    · rw [cutAt_of_not_mem hs, List.mem_singleton] at h
      exact h ▸ hs
    · rw [cutAt_append hu] at h
      rcases List.mem_cons.mp h with rfl | h
      · exact hu
      · exact ih v.length (by simp [← hn]; omega) h rfl

/-- The pieces of a text between occurrences of a character, each of them trimmed. -/
def pieces (c : Char) (s : List Char) : List (List Char) := (cutAt c s).map trim

theorem pieces_append {u : List Char} (hu : c ∉ u) (v : List Char) : pieces c (u ++ c :: v) = trim u :: pieces c v := by
  rw [pieces, cutAt_append hu, List.map_cons, pieces]

theorem pieces_of_not_mem {u : List Char} (hu : c ∉ u) : pieces c u = [trim u] := by
  rw [pieces, cutAt_of_not_mem hu, List.map_singleton]

/-- What begins with the character adds its own pieces behind a text without it. -/
theorem pieces_behind {u r : List Char} (hu : c ∉ u) (hr : ∀ d s, r = d :: s → d = c) :
    pieces c (u ++ r) = trim u :: (pieces c r).tail := by
  cases r with
  | nil =>
    rw [List.append_nil, pieces_of_not_mem hu, pieces_of_not_mem List.not_mem_nil]
    rfl
  | cons d s =>
    obtain rfl := hr d s rfl
    have hnil := pieces_append (List.not_mem_nil (a := d)) s
    rw [List.nil_append] at hnil
    rw [pieces_append hu, hnil, List.tail_cons]

theorem not_mem_of_mem_pieces {t : List Char} (h : t ∈ pieces c s) : c ∉ t := by
  obtain ⟨u, hu, rfl⟩ := List.mem_map.mp h
  exact fun hc => not_mem_of_mem_cutAt hu (mem_of_mem_trim hc)

/-- Two texts with the character between them have the pieces of both. -/
theorem pieces_between (s t : List Char) : pieces c (s ++ c :: t) = pieces c s ++ pieces c t := by
  induction hn : s.length using Nat.strong_induction_on generalizing s with
  | _ n ih =>
    rcases cutAt_cases c s with hs | ⟨u, v, rfl, hu⟩
    · rw [pieces_append hs, pieces_of_not_mem hs, List.singleton_append]
    · rw [List.append_assoc, List.cons_append, pieces_append hu, pieces_append hu,
        ih v.length (by simp [← hn]; omega) v rfl, List.cons_append]

section
variable (hc : isBlank c = false)
include hc

theorem not_mem_of_blank (hw : ∀ d ∈ w, isBlank d = true) : c ∉ w := by
  intro h
  rw [hw c h] at hc
  cases hc

theorem pieces_append_left (hw : ∀ d ∈ w, isBlank d = true) (s : List Char) : pieces c (w ++ s) = pieces c s := by
  have hcw : c ∉ w := not_mem_of_blank hc hw
  rcases cutAt_cases c s with hs | ⟨u, v, rfl, hu⟩
  · rw [pieces_of_not_mem hs, pieces_of_not_mem (by simp [hcw, hs]), trim_append_left hw]
  · rw [← List.append_assoc, pieces_append (by simp [hcw, hu]), pieces_append hu, trim_append_left hw]

theorem pieces_append_right (hw : ∀ d ∈ w, isBlank d = true) (s : List Char) : pieces c (s ++ w) = pieces c s := by
  have hcw : c ∉ w := not_mem_of_blank hc hw
  induction hn : s.length using Nat.strong_induction_on generalizing s with
  | _ n ih =>
    rcases cutAt_cases c s with hs | ⟨u, v, rfl, hu⟩
    · rw [pieces_of_not_mem hs, pieces_of_not_mem (by simp [hcw, hs]), trim_append_right hw]
    · rw [List.append_assoc, List.cons_append, pieces_append hu, pieces_append hu,
        ih v.length (by simp [← hn]; omega) v rfl]

theorem pieces_trimLeft (s : List Char) : pieces c (trimLeft s) = pieces c s := by
  obtain ⟨w, hw, hs⟩ := exists_trimLeft s
  conv_rhs => rw [hs]
  exact (pieces_append_left hc hw _).symm

/-- Trimming the whole text first changes no piece. -/
theorem pieces_trim (s : List Char) : pieces c (trim s) = pieces c s := by
  obtain ⟨w, hw, hs⟩ := exists_trimRight s
  rw [← trimLeft_trimRight, pieces_trimLeft hc]
  conv_rhs => rw [hs]
  exact (pieces_append_right hc hw _).symm

/-- The pieces of texts with the character between them, and blanks around it. -/
theorem pieces_flatMap {w' : List Char} (hw : ∀ d ∈ w, isBlank d = true) (hw' : ∀ d ∈ w', isBlank d = true) {u : List Char}
    (hu : c ∉ u) {vs : List (List Char)} (hvs : ∀ v ∈ vs, c ∉ v) :
    pieces c (u ++ vs.flatMap fun v => w ++ c :: (w' ++ v)) = trim u :: vs.map trim := by
  have hmem : c ∉ w := not_mem_of_blank hc hw
  have hmem' : c ∉ w' := not_mem_of_blank hc hw'
  induction vs generalizing u with
  | nil => rw [List.flatMap_nil, List.append_nil, pieces_of_not_mem hu, List.map_nil]
  | cons v vs ih =>
    have hv : c ∉ w' ++ v := by simp [hmem', hvs v List.mem_cons_self]
    have hrest : ∀ t ∈ vs, c ∉ t := fun t ht => hvs t (List.mem_cons_of_mem v ht)
    rw [List.flatMap_cons, List.append_assoc, List.cons_append, ← List.append_assoc, pieces_append (by simp [hu, hmem]),
      trim_append_right hw, ih hv hrest, trim_append_left hw', List.map_cons]

end

theorem pieces_ne_nil (c : Char) (s : List Char) : pieces c s ≠ [] := by
  rcases cutAt_cases c s with hs | ⟨u, v, rfl, hu⟩
  · simp [pieces_of_not_mem hs]
  · simp [pieces_append hu]

end Harvest.Text
