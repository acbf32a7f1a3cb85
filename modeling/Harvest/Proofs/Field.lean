import Harvest.Options
import Harvest.Proofs.Matching
import Mathlib.Data.List.TakeWhile

/-
  The pattern of a field: a selector, then an attribute, which may both be missing.

  Such a pattern has two parts, and the second begins with a character that the first may not hold (`twoParts`). So the
  first group takes everything up to the first such character (`run_upTo`), and what this character begins is tried before
  it is left out: a match takes a field apart where that character stands (`parts_first`, `parts_both`). In the
  standard pattern it is an opening bracket:
    1. `fieldParts_selector` — a field without an opening bracket is a selector, which may be empty.
    2. `fieldParts_attribute` — behind a selector, brackets around a text without brackets hold the attribute.
    3. `fieldParts_other` — with anything else behind an opening bracket the pattern does not match.
-/
namespace Harvest
open Text Regex

/-- Any run of characters but an opening bracket. -/
def beforeBracket : Pattern := .group 1 (.many 1 none .greedy (.set true [.char '['] false))

/-- Brackets around a run of other characters. -/
def inBrackets : Pattern :=
  .enclosed (.cat (.char '[' false)
    (.cat (.group 2 (.many 1 none .greedy (.set true [.char '[', .char ']'] false))) (.char ']' false)))

/-- The expression that the text of the pattern writes down. -/
def field : Expression where
  source := Options.bracketPattern
  pattern := .cat (.anchor .textStart) (.cat (.many 0 (some 1) .greedy beforeBracket)
    (.cat (.many 0 (some 1) .greedy inBrackets) (.anchor .lastLineEnd)))
  groups := 2

theorem selectorPattern_eq : Options.standardDialect.selectorPattern = field := by decide +kernel

/-- What both groups of an expression take of a text, the selector and the attribute of a field; nothing where it does
not match. -/
def Regex.Expression.parts? (e : Expression) (s : List Char) : Option (Option (List Char) × Option (List Char)) :=
  (e.matchAt? s).map fun p => (p.group? 1, p.group? 2)

/-- A text, unless it is empty. -/
def unlessEmpty (w : List Char) : Option (List Char) := if w = [] then none else some w

namespace Regex

/-! ## Patterns of two parts -/

/-- Any run of characters but one, as the first group. -/
def upTo (o : Char) : Pattern := .group 1 (.many 1 none .greedy (.set true [.char o] false))

/-- A run of characters without two that enclose it, as the second group, and the closing one. -/
def closedBy (o c : Char) : Pattern :=
  .cat (.group 2 (.many 1 none .greedy (.set true [.char o, .char c] false))) (.char c false)

/-- A text up to a character, and what this character begins; both may be missing. -/
def twoParts (o : Char) (second : Pattern) : Pattern :=
  .cat (.anchor .textStart) (.cat (.many 0 (some 1) .greedy (upTo o))
    (.cat (.many 0 (some 1) .greedy (.enclosed (.cat (.char o false) second))) (.anchor .lastLineEnd)))

/-- Onward to the end of the text. -/
def finish : Onward := (Pattern.anchor .lastLineEnd).run some

/-- What the groups have taken once a group has taken a text, unless that is empty. -/
def taking (i : Nat) (w : List Char) (taken : List (Nat × List Char)) : List (Nat × List Char) :=
  if w = [] then taken else (i, w) :: taken

theorem run_outside (ms : List Member) :
    (Pattern.set true ms false).run = one fun c => !ms.any (·.has c) := by
  rw [run_set]
  congr
  funext c
  exact Bool.bne_true _

theorem run_noOpening (o : Char) : (Pattern.set true [.char o] false).run = one (· != o) := by
  rw [run_outside]
  congr
  funext c
  simp [Member.has, bne]

theorem run_noBracket (o c : Char) :
    (Pattern.set true [.char o, .char c] false).run = one fun d => d != o && d != c := by
  rw [run_outside]
  congr
  funext d
  simp [Member.has, bne]

/-- The end of a text is its last line end. -/
theorem run_end (behind : List Char) (taken : List (Nat × List Char)) :
    (Pattern.anchor .lastLineEnd).run some ⟨behind, [], taken⟩ = some ⟨behind, [], taken⟩ := rfl

section
variable {o c : Char} {k : Onward}

/-- The first group takes all that stands before the opening character, where what follows matches behind it. -/
theorem run_upTo {w r : List Char} (hw : o ∉ w) (hr : Stops (· != o) r)
    (hk : ∀ taken, (k ⟨w.reverse, r, taken⟩).isSome) :
    (Pattern.many 0 (some 1) .greedy (upTo o)).run k ⟨[], w ++ r, []⟩ = k ⟨w.reverse, r, taking 1 w []⟩ := by
  have hall : ∀ d ∈ w, (d != o) = true := by
    intro d hd
    rw [bne_iff_ne]
    rintro rfl
    exact hw hd
  rw [run_optional, upTo, Pattern.run]
  by_cases hne : w = []
  · -- nothing to take: the group is left out
    subst hne
    rw [run_many_short (run_noOpening o) hall hr (by simp), Option.none_or]
    rfl
  · have hlen : 1 ≤ w.length := List.length_pos_iff.mpr hne
    have hdecides : Decides (fun q => k ((⟨[], w ++ r, []⟩ : Place).take q 1)) [] w r [] := by
      left
      simp only [List.append_nil, take_between]
      exact hk _
    obtain ⟨p, hp⟩ := Option.isSome_iff_exists.mp (hk [(1, w)])
    rw [run_many (run_noOpening o) hall hr hlen hdecides]
    simp only [List.append_nil, take_between, taking, if_neg hne]
    rw [hp, Option.some_or]

/-- What the opening character begins is taken where it leads on. -/
theorem run_opened {second : Pattern} {before s : List Char} {taken : List (Nat × List Char)} {p : Place}
    (h : second.run k ⟨o :: before, s, taken⟩ = some p) :
    (Pattern.many 0 (some 1) .greedy (.enclosed (.cat (.char o false) second))).run k ⟨before, o :: s, taken⟩ = some p := by
  rw [run_optional, Pattern.run, Pattern.run, run_char, one_cons (by simp), h, Option.some_or]

/-- Where the opening character does not stand, what it begins is left out. -/
theorem run_unopened (second : Pattern) {s : List Char} (hs : Stops (o == ·) s) (before : List Char)
    (taken : List (Nat × List Char)) :
    (Pattern.many 0 (some 1) .greedy (.enclosed (.cat (.char o false) second))).run k ⟨before, s, taken⟩
      = k ⟨before, s, taken⟩ := by
  rw [run_optional, Pattern.run, Pattern.run, run_char, one_stops hs, Option.none_or]

/-- A run that the closing character ends is taken, where what follows matches behind that. -/
theorem run_closedBy {q : List Char} (hne : q ≠ []) (hopen : o ∉ q) (hclose : c ∉ q) (before : List Char)
    (taken : List (Nat × List Char)) (hk : ∀ behind taken, (k ⟨behind, [], taken⟩).isSome) :
    ∃ behind, (closedBy o c).run k ⟨before, q ++ [c], taken⟩ = k ⟨behind, [], (2, q) :: taken⟩ := by
  have hall : ∀ d ∈ q, (d != o && d != c) = true := by
    intro d hd
    simp only [Bool.and_eq_true, bne_iff_ne]
    constructor
    · rintro rfl
      exact hopen hd
    · rintro rfl
      exact hclose hd
  have hstops : Stops (fun d => d != o && d != c) [c] := Stops.cons (by simp) []
  -- behind the run the closing character and the end follow
  let onward : Onward := fun p => (Pattern.char c false).run k ((⟨before, q ++ [c], taken⟩ : Place).take p 2)
  have honward : ∀ behind, onward ⟨behind, [c], taken⟩ = k ⟨c :: behind, [], (2, q) :: taken⟩ := by
    intro behind
    simp only [onward]
    rw [take_between, run_char, one_cons (by simp)]
  have hdecides : Decides onward before q [c] taken := by
    left
    rw [honward]
    exact hk _ _
  refine ⟨c :: (q.reverse ++ before), ?_⟩
  rw [closedBy, Pattern.run, Pattern.run]
  exact (run_many (run_noBracket o c) hall hstops (List.length_pos_iff.mpr hne) hdecides).trans (honward _)

end

section
variable {e : Expression} {o : Char} {second : Pattern}

/-- A text without the opening character is the first part. -/
theorem parts_first (he : e.pattern = twoParts o second) {p : List Char} (hp : o ∉ p) :
    e.parts? p = some (unlessEmpty p, none) := by
  let onward : Onward := (Pattern.many 0 (some 1) .greedy (.enclosed (.cat (.char o false) second))).run finish
  have honward : ∀ taken, onward ⟨p.reverse, [], taken⟩ = some ⟨p.reverse, [], taken⟩ := by
    intro taken
    simp only [onward]
    rw [run_unopened second (Stops.nil _), finish, run_end]
  have hfirst : (Pattern.many 0 (some 1) .greedy (upTo o)).run onward ⟨[], p ++ [], []⟩ = _ :=
    run_upTo hp (Stops.nil _) fun taken => by simp [honward]
  rw [List.append_nil, honward] at hfirst
  have hmatch : e.matchAt? p = some ⟨p.reverse, [], taking 1 p []⟩ := by
    rw [Expression.matchAt?, he]
    exact hfirst
  rw [Expression.parts?, hmatch]
  by_cases h : p = [] <;> simp [h, taking, unlessEmpty, Place.group?, List.lookup_cons]

/-- A text in front of the opening character is the first part, and what the second group takes behind it the second. -/
theorem parts_both (he : e.pattern = twoParts o second) {p s q : List Char} (hp : o ∉ p)
    (hsecond : ∀ before taken, ∃ behind, second.run finish ⟨before, s, taken⟩ = some ⟨behind, [], (2, q) :: taken⟩) :
    e.parts? (p ++ o :: s) = some (unlessEmpty p, some q) := by
  let onward : Onward := (Pattern.many 0 (some 1) .greedy (.enclosed (.cat (.char o false) second))).run finish
  have honward : ∀ taken, ∃ behind, onward ⟨p.reverse, o :: s, taken⟩ = some ⟨behind, [], (2, q) :: taken⟩ := by
    intro taken
    obtain ⟨behind, h⟩ := hsecond (o :: p.reverse) taken
    exact ⟨behind, run_opened h⟩
  have hfirst : (Pattern.many 0 (some 1) .greedy (upTo o)).run onward ⟨[], p ++ o :: s, []⟩ = _ :=
    run_upTo hp (Stops.cons (by simp) s) fun taken => by
      obtain ⟨behind, h⟩ := honward taken
      simp [h]
  obtain ⟨behind, h⟩ := honward (taking 1 p [])
  have hmatch : e.matchAt? (p ++ o :: s) = some ⟨behind, [], (2, q) :: taking 1 p []⟩ := by
    rw [Expression.matchAt?, he, ← h]
    exact hfirst
  rw [Expression.parts?, hmatch]
  by_cases h : p = [] <;> simp [h, taking, unlessEmpty, Place.group?, List.lookup_cons]

theorem isSome_finish (behind : List Char) (taken : List (Nat × List Char)) :
    (finish ⟨behind, [], taken⟩).isSome := by
  rw [finish, run_end]
  rfl

/-- What stands between an opening and a closing character is the second part. -/
theorem parts_closedBy {c : Char} (he : e.pattern = twoParts o (closedBy o c)) {p q : List Char} (hp : o ∉ p)
    (hne : q ≠ []) (hopen : o ∉ q) (hclose : c ∉ q) :
    e.parts? (p ++ o :: (q ++ [c])) = some (unlessEmpty p, some q) := by
  refine parts_both he hp fun before taken => ?_
  obtain ⟨behind, h⟩ := run_closedBy hne hopen hclose before taken isSome_finish
  exact ⟨behind, h.trans (run_end _ _)⟩

end

/-! ## The standard pattern -/

/-- Brackets are not taken where what follows them does not match. -/
theorem run_brackets_none {r : List Char} (before : List Char) (taken : List (Nat × List Char))
    (hk : ∀ q t, q ≠ [] → '[' ∉ q → ']' ∉ q → r = q ++ ']' :: t → ∀ behind taken, k ⟨behind, t, taken⟩ = none) :
    inBrackets.run k ⟨before, '[' :: r, taken⟩ = none := by
  let test : Char → Bool := fun c => c != '[' && c != ']'
  obtain ⟨q, s, hr, hq, hs⟩ : ∃ q s, r = q ++ s ∧ (∀ c ∈ q, test c = true) ∧ Stops test s :=
    ⟨_, _, List.takeWhile_append_dropWhile.symm, fun _ => List.mem_takeWhile_imp, Stops.dropWhile test r⟩
  have hopen : '[' ∉ q := fun h => by simpa [test] using hq _ h
  have hclose : ']' ∉ q := fun h => by simpa [test] using hq _ h
  let onward : Onward := fun p => (Pattern.char ']' false).run k ((⟨'[' :: before, q ++ s, taken⟩ : Place).take p 2)
  -- no bracket closes within the run
  have hwithin : ∀ u v, q = u ++ v → v ≠ [] → onward ⟨u.reverse ++ '[' :: before, v ++ s, taken⟩ = none := by
    intro u v huv hne
    obtain ⟨c, v, rfl⟩ := List.exists_cons_of_ne_nil hne
    have hc : ']' ≠ c := by
      rintro rfl
      exact hclose (by simp [huv])
    simp only [onward, List.cons_append]
    rw [run_char, Place.take]
    exact one_stops (Stops.cons (by simpa using hc) _) _ _ _
  rw [inBrackets, Pattern.run, Pattern.run, run_char, one_cons (by decide), Pattern.run, Pattern.run, hr]
  by_cases hne : q = []
  · subst hne
    exact run_many_short (run_noBracket '[' ']') hq hs (by simp)
  · refine (run_many (run_noBracket '[' ']') hq hs (List.length_pos_iff.mpr hne) (.inr hwithin)).trans ?_
    simp only [onward]
    rw [take_between, run_char]
    cases s with
    | nil => exact one_stops (Stops.nil _) _ _ _
    | cons c t =>
      by_cases hc : c = ']'
      · subst hc
        rw [one_cons (by decide)]
        exact hk q t hne hopen hclose hr _ _
      · exact one_stops (Stops.cons (by simpa using Ne.symm hc) _) _ _ _

theorem run_end_none {t : List Char} (hne : t ≠ []) (hline : t ≠ ['\n']) (behind : List Char)
    (taken : List (Nat × List Char)) : (Pattern.anchor .lastLineEnd).run some ⟨behind, t, taken⟩ = none := by
  have hholds : Anchor.lastLineEnd.holds ⟨behind, t, taken⟩ = false := by simp [Anchor.holds, hne, hline]
  rw [Pattern.run, hholds]
  rfl

/-- Where an opening bracket is ahead, the end is reached only through an attribute. -/
theorem run_attribute_none {v r : List Char} (hv : '[' ∉ v)
    (hr : ∀ q t, q ≠ [] → '[' ∉ q → ']' ∉ q → r = q ++ ']' :: t → t ≠ [] ∧ t ≠ ['\n']) (behind : List Char)
    (taken : List (Nat × List Char)) :
    (Pattern.many 0 (some 1) .greedy inBrackets).run ((Pattern.anchor .lastLineEnd).run some)
      ⟨behind, v ++ '[' :: r, taken⟩ = none := by
  have hbrackets : inBrackets.run ((Pattern.anchor .lastLineEnd).run some) ⟨behind, v ++ '[' :: r, taken⟩ = none := by
    cases v with
    | nil =>
      refine run_brackets_none behind taken fun q t hne hopen hclose ht behind taken => ?_
      obtain ⟨ht, hline⟩ := hr q t hne hopen hclose ht
      exact run_end_none ht hline behind taken
    | cons c v =>
      have hc : '[' ≠ c := fun h => hv (h ▸ List.mem_cons_self)
      rw [inBrackets, Pattern.run, Pattern.run, run_char, List.cons_append]
      exact one_stops (Stops.cons (by simpa using hc) _) _ _ _
  have hline : v ++ '[' :: r ≠ ['\n'] := by
    cases v with
    | nil => simp
    | cons c v => simp
  rw [run_optional, hbrackets, run_end_none (by simp) hline, Option.none_or]

theorem matchAt_field (s : List Char) :
    field.matchAt? s = (Pattern.many 0 (some 1) .greedy beforeBracket).run
      ((Pattern.many 0 (some 1) .greedy inBrackets).run ((Pattern.anchor .lastLineEnd).run some)) ⟨[], s, []⟩ := rfl

end Regex

/-- What both groups take of a field, the selector and the attribute; nothing where the pattern does not match. -/
def fieldParts (s : List Char) : Option (Option (List Char) × Option (List Char)) :=
  (field.matchAt? s).map fun p => (p.group? 1, p.group? 2)

theorem fieldParts_selector {p : List Char} (hp : '[' ∉ p) : fieldParts p = some (unlessEmpty p, none) :=
  parts_first (e := field) rfl hp

theorem fieldParts_attribute {p q : List Char} (hp : '[' ∉ p) (hne : q ≠ []) (hopen : '[' ∉ q) (hclose : ']' ∉ q) :
    fieldParts (p ++ '[' :: (q ++ [']'])) = some (unlessEmpty p, some q) :=
  parts_closedBy (e := field) rfl hp hne hopen hclose

/-- With anything else behind the first opening bracket the pattern does not match. -/
theorem fieldParts_other {p r : List Char} (hp : '[' ∉ p)
    (hr : ∀ q t, q ≠ [] → '[' ∉ q → ']' ∉ q → r = q ++ ']' :: t → t ≠ [] ∧ t ≠ ['\n']) :
    fieldParts (p ++ '[' :: r) = none := by
  let onward : Onward :=
    (Pattern.many 0 (some 1) .greedy inBrackets).run ((Pattern.anchor .lastLineEnd).run some)
  have honward : ∀ v behind taken, '[' ∉ v → onward ⟨behind, v ++ '[' :: r, taken⟩ = none :=
    fun _ behind taken hv => run_attribute_none hv hr behind taken
  have hall : ∀ c ∈ p, (c != '[') = true := fun c hc => bne_iff_ne.mpr fun h => hp (h ▸ hc)
  have hstops : Stops (· != '[') ('[' :: r) := Stops.cons (by decide) r
  -- the first group may take the selector or less of it; neither leads on
  have hgroup : beforeBracket.run onward ⟨[], p ++ '[' :: r, []⟩ = none := by
    rw [beforeBracket, Pattern.run]
    by_cases hne : p = []
    · subst hne
      exact run_many_short (run_noOpening '[') hall hstops (by simp)
    · refine (run_many (run_noOpening '[') hall hstops (List.length_pos_iff.mpr hne) (.inr fun u v huv _ => ?_)).trans ?_
      · exact honward v _ _ fun h => hp (huv ▸ List.mem_append_right u h)
      · exact honward [] _ _ List.not_mem_nil
  have hmatch : field.matchAt? (p ++ '[' :: r) = none := by
    rw [matchAt_field, run_optional]
    change (beforeBracket.run onward _).or (onward _) = none
    rw [hgroup, honward p [] [] hp, Option.none_or]
  rw [fieldParts, hmatch, Option.map_none]

end Harvest
