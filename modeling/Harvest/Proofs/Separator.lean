import Harvest.Options
import Harvest.Proofs.Matching
import Harvest.Proofs.Pieces

/-
  The standard separator of filters: a bar with blanks around it.

  At a place it matches exactly when blanks and then a bar follow, and it takes the blanks behind the bar as well
  (`matchHere_bar`, `matchHere_other`). Within a text without blanks at its end, the first match therefore begins where
  the blanks before the first bar begin (`search_bar`), and cutting at the matches leaves the trimmed pieces between the
  bars: `split_trim`.
-/
namespace Harvest
open Text Regex

/-- Blanks, as many as there are. -/
def blanks : Pattern := .many 0 none .greedy (.set false [.category .blank false false] false)

/-- The expression that the text of the separator writes down. -/
def bar : Expression := ⟨Options.barPattern, .cat blanks (.cat (.char '|' false) blanks), 0⟩

theorem filterSeparator_eq : Options.standardDialect.filterSeparator = bar := by decide +kernel

namespace Regex

theorem blank_bar : isBlank '|' = false := by decide

theorem bar_not_mem {w : List Char} (hw : ∀ c ∈ w, isBlank c = true) : '|' ∉ w := not_mem_of_blank blank_bar hw

variable {w : List Char}

/-- Blanks, a bar and more blanks are matched as a whole. -/
theorem matchHere_bar (hw : ∀ c ∈ w, isBlank c = true) (empty : Bool) (before v : List Char)
    (taken : List (Nat × List Char)) :
    ∃ behind, bar.matchHere? empty ⟨before, w ++ '|' :: v, taken⟩ = some ⟨behind, trimLeft v, []⟩ := by
  obtain ⟨x, hx, hv⟩ := exists_trimLeft v
  have hstops : Stops isBlank (trimLeft v) := Stops.dropWhile isBlank v
  have hbar : Stops isBlank ('|' :: v) := Stops.cons blank_bar v
  have hshort : (trimLeft v).length ≤ v.length := (trimLeft_suffix v).length_le
  let k : Onward := fun q => if !empty && q.sameAs ⟨before, w ++ '|' :: v, taken⟩ then none else some q
  -- the bar at least is taken, so the match is not empty
  have hk : ∀ b, k ⟨b, trimLeft v, []⟩ = some ⟨b, trimLeft v, []⟩ := by
    intro b
    have hne : (⟨b, trimLeft v, []⟩ : Place).sameAs ⟨before, w ++ '|' :: v, taken⟩ = false := by
      simp only [Place.sameAs, List.length_append, List.length_cons, beq_eq_false_iff_ne]
      omega
    simp [k, hne]
  have hbehind : ∀ b, blanks.run k ⟨b, v, []⟩ = some ⟨x.reverse ++ b, trimLeft v, []⟩ := by
    intro b
    have hrun : blanks.run k ⟨b, x ++ trimLeft v, []⟩ = k ⟨x.reverse ++ b, trimLeft v, []⟩ := by
      refine run_many run_blank hx hstops (Nat.zero_le _) (.inl ?_)
      rw [hk]
      rfl
    rw [← hv] at hrun
    rw [hrun, hk]
  have hthen : ∀ b, (Pattern.cat (.char '|' false) blanks).run k ⟨b, '|' :: v, []⟩
      = some ⟨x.reverse ++ '|' :: b, trimLeft v, []⟩ := by
    intro b
    rw [Pattern.run, run_char, one_cons (by decide), hbehind]
  refine ⟨x.reverse ++ '|' :: (w.reverse ++ before), ?_⟩
  have hdecides : Decides ((Pattern.cat (.char '|' false) blanks).run k) before w ('|' :: v) [] :=
    .inl (by rw [hthen]; rfl)
  have hrun := run_many run_blank hw hbar (Nat.zero_le _) hdecides
  rw [Expression.matchHere?, bar, Pattern.run]
  exact hrun.trans (hthen _)

/-- Where something other than a bar follows the blanks, nothing is matched. -/
theorem matchHere_other {s : List Char} (hs : ∀ r, trimLeft s ≠ '|' :: r) (empty : Bool) (before : List Char)
    (taken : List (Nat × List Char)) : bar.matchHere? empty ⟨before, s, taken⟩ = none := by
  obtain ⟨w, hw, hs'⟩ := exists_trimLeft s
  have hstops : Stops isBlank (trimLeft s) := Stops.dropWhile isBlank s
  let k : Onward := fun q => if !empty && q.sameAs ⟨before, s, taken⟩ then none else some q
  have hnone : ∀ b t, Stops ('|' == ·) t → (Pattern.cat (.char '|' false) blanks).run k ⟨b, t, []⟩ = none := by
    intro b t ht
    rw [Pattern.run, run_char, one_stops ht]
  have hrest : Stops ('|' == ·) (trimLeft s) := by
    intro c r hc
    have hne : '|' ≠ c := fun h => hs r (h ▸ hc)
    simpa using hne
  -- within the blanks a blank follows, which is no bar
  have hdecides : Decides ((Pattern.cat (.char '|' false) blanks).run k) before w (trimLeft s) [] := by
    right
    intro u v hv hne
    obtain ⟨c, v, rfl⟩ := List.exists_cons_of_ne_nil hne
    have hc : isBlank c = true := hw c (by simp [hv])
    have hbar : '|' ≠ c := by
      rintro rfl
      exact absurd hc (by decide)
    exact hnone _ _ (Stops.cons (by simpa using hbar) _)
  have hrun := run_many run_blank hw hstops (Nat.zero_le _) hdecides
  rw [← hs'] at hrun
  rw [Expression.matchHere?, bar, Pattern.run]
  exact hrun.trans (hnone _ _ hrest)

/-- A text without a bar has no match. -/
theorem search_none {s : List Char} (hs : '|' ∉ s) (empty : Bool) (before : List Char) :
    bar.search? empty before s = none := by
  have hother : ∀ t : List Char, '|' ∉ t → ∀ r, trimLeft t ≠ '|' :: r := by
    intro t ht r h
    have hmem : '|' ∈ trimLeft t := by simp [h]
    exact ht ((trimLeft_suffix t).subset hmem)
  induction s generalizing empty before with
  | nil => rw [Expression.search?, matchHere_other (hother [] hs), Option.map_none]
  | cons c s ih =>
    rw [Expression.search?, matchHere_other (hother _ hs)]
    exact ih (fun h => hs (List.mem_cons_of_mem c h)) true _

/-- The first match in a text `u ++ w` before a bar, where `w` are blanks and none stands before them. -/
theorem search_bar {u : List Char} (hw : ∀ c ∈ w, isBlank c = true) (hbar : '|' ∉ u) (hu : trimRight u = u)
    (empty : Bool) (before v : List Char) :
    ∃ b, bar.search? empty before (u ++ (w ++ '|' :: v))
      = some (⟨u.reverse ++ before, w ++ '|' :: v, []⟩, ⟨b, trimLeft v, []⟩) := by
  induction u generalizing empty before with
  | nil =>
    obtain ⟨b, hb⟩ := matchHere_bar hw empty before v []
    refine ⟨b, ?_⟩
    rw [List.nil_append, List.reverse_nil, List.nil_append]
    obtain ⟨c, s, hs⟩ := List.exists_cons_of_ne_nil (l := w ++ '|' :: v) (by simp)
    rw [hs] at hb ⊢
    rw [Expression.search?, hb]
  | cons c u ih =>
    have hsuffix : trimRight u = u := trimRight_eq_self_of_suffix (List.suffix_cons c u) hu
    -- something that is no blank stands in `c :: u`, and it is no bar
    have hother : ∀ r, trimLeft (c :: u ++ (w ++ '|' :: v)) ≠ '|' :: r := by
      intro r h
      have hne : trimLeft (c :: u) ≠ [] := by
        intro hnil
        rw [trimRight_eq_self] at hu
        have hblank := List.dropWhile_eq_nil_iff.mp hnil _ (List.getLast_mem (List.cons_ne_nil c u))
        rw [hu (List.cons_ne_nil c u)] at hblank
        cases hblank
      obtain ⟨d, t, ht⟩ := List.exists_cons_of_ne_nil hne
      rw [trimLeft_append_of_ne_nil hne, ht, List.cons_append] at h
      have hd : d ∈ trimLeft (c :: u) := by simp [ht]
      rw [(List.cons.inj h).1] at hd
      exact hbar ((trimLeft_suffix _).subset hd)
    obtain ⟨b, hb⟩ := ih (fun h => hbar (List.mem_cons_of_mem c h)) hsuffix true (c :: before)
    refine ⟨b, ?_⟩
    rw [List.cons_append] at hother ⊢
    rw [Expression.search?, matchHere_other hother]
    simp only [hb, List.reverse_cons, List.append_assoc, List.singleton_append]

/-- Cutting a trimmed text from any place on, by induction on the number of cuts allowed. -/
theorem splitFrom_bar : ∀ (fuel : Nat) (s before : List Char) (taken : List (Nat × List Char)), trim s = s →
    s.count '|' < fuel → bar.splitFrom fuel true ⟨before, s, taken⟩ = (pieces '|' s).map some := by
  intro fuel
  induction fuel with
  | zero => intro s _ _ _ h; omega
  | succ fuel ih =>
    intro s before taken hs hfuel
    rcases cutAt_cases '|' s with hbar | ⟨u, v, rfl, hu⟩
    · rw [Expression.splitFrom, search_none hbar, pieces_of_not_mem hbar, hs]
      rfl
    · obtain ⟨w, hw, huw⟩ := exists_trimRight u
      have hsub : '|' ∉ trimRight u := fun h => hu ((trimRight_begins u).subset h)
      obtain ⟨b, hsearch⟩ := search_bar hw hsub (trimRight_trimRight u) true before v
      rw [← List.append_assoc, ← huw] at hsearch
      have hlen : (trimLeft v).length ≤ v.length := (trimLeft_suffix v).length_le
      have hsame : (⟨b, trimLeft v, []⟩ : Place).sameAs ⟨(trimRight u).reverse ++ before, w ++ '|' :: v, []⟩ = false := by
        simp only [Place.sameAs, List.length_append, List.length_cons, beq_eq_false_iff_ne]
        omega
      have hbetween : (⟨before, u ++ '|' :: v, taken⟩ : Place).between
          ⟨(trimRight u).reverse ++ before, w ++ '|' :: v, []⟩ = trimRight u := by
        simp only [Place.between]
        conv_lhs => rw [huw]
        rw [List.append_assoc, List.length_append, Nat.add_sub_cancel, List.take_left']
        rfl
      -- no blank stands before `u`, and none behind `v`
      have hfirst : trim u = trimRight u := by
        cases u with
        | nil => rfl
        | cons c u =>
          rw [List.cons_append] at hs
          rw [trim, trimLeft_cons_of_not_blank (isBlank_of_trim hs)]
      have hrest : trim (trimLeft v) = trimLeft v := by
        have hsuffix : v <:+ u ++ '|' :: v := (List.suffix_cons '|' v).trans (List.suffix_append u _)
        rw [trim_trimLeft, ← trimLeft_trimRight, trimRight_eq_self_of_suffix hsuffix (trimRight_of_trim hs)]
      have hcount : (trimLeft v).count '|' < fuel := by
        have hle := (trimLeft_suffix v).sublist.count_le '|'
        rw [List.count_append, List.count_cons_self] at hfuel
        omega
      rw [Expression.splitFrom, hsearch, pieces_append hu, hfirst, List.map_cons, ← pieces_trimLeft blank_bar]
      simp only [hsame, hbetween, Bool.not_false]
      rw [ih (trimLeft v) b [] hrest hcount]
      rfl

end Regex

/-- A trimmed text is cut into the trimmed pieces between its bars. -/
theorem split_trim (s : List Char) : bar.split (trim s) = (pieces '|' s).map some := by
  rw [Expression.split, ← pieces_trim blank_bar]
  refine splitFrom_bar _ _ [] [] (trim_trim s) ?_
  have hle := List.count_le_length (a := '|') (l := trim s)
  omega

theorem split_trim_cons {s f : List Char} {ps : List (List Char)} (h : pieces '|' s = f :: ps) :
    bar.split (trim s) = some f :: ps.map some := by
  rw [split_trim, h, List.map_cons]

end Harvest
