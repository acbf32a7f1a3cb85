import Harvest.Proofs.Matching
import Harvest.Proofs.Size
import Harvest.Regex.Reader

/-
  The regular expression of sizes.

  The search for a size is the search for an expression with two groups: the amount and the unit. Within a run of
  amount characters, and within the blanks behind it, no unit begins, so that giving characters back leads nowhere and
  only whole runs count (`matchHere?_expression`); and a unit is read in one way only (`run_unit`).
    1. `search?_expression` — the first match of the expression has the amount and the unit that the search finds.
-/
namespace Harvest.Size
open Text Regex

/-- The members of a set for the characters of an amount. -/
def amountMembers : List Member := [.category .digit false false, .char '.']

/-- The expression of a unit. -/
def unitPattern : Pattern :=
  .cat (.many 0 (some 1) .greedy (.set false (scaleLetters.map .char) false))
    (.cat (.many 0 (some 1) .greedy (.char 'I' false)) (.char 'B' false))

/-- The expression of what follows an amount. -/
def unitBehindBlanks : Pattern :=
  .cat (.many 0 none .greedy (.set false [.category .blank false false] false)) (.group 2 unitPattern)

/-- The expression of sizes. -/
def expression : Expression where
  source := "([\\d.]+)\\s*([KMGT]?I?B)"
  pattern := .cat (.group 1 (.many 1 none .greedy (.set false amountMembers false))) unitBehindBlanks
  groups := 2

theorem read_expression : Expression.read "([\\d.]+)\\s*([KMGT]?I?B)" = .ok expression := by decide +kernel

variable {s u w r before : List Char} {taken : List (Nat × List Char)} {k : Onward}

/-! ## Units -/

/-- A letter comes next, or there is no match. -/
theorem run_letter (c : Char) (k : Onward) (before s : List Char) (taken : List (Nat × List Char)) :
    (Pattern.char c false).run k ⟨before, s, taken⟩ =
      if s.head? = some c then k ⟨c :: before, s.tail, taken⟩ else none := by
  rw [run_char]
  cases s with
  | nil => rfl
  | cons d s =>
    by_cases h : d = c
    · subst h
      simpa using one_cons (by simp) k before s taken
    · rw [one_stops (.cons (by simpa using Ne.symm h) s), List.head?_cons, if_neg (by simpa using h)]

theorem run_scale (k : Onward) (before : List Char) (d : Char) (s : List Char) (taken : List (Nat × List Char)) :
    (Pattern.set false (scaleLetters.map .char) false).run k ⟨before, d :: s, taken⟩ =
      if scaleLetters.contains d then k ⟨d :: before, s, taken⟩ else none := by
  have htest : ((scaleLetters.map Member.char).any (·.has d) != false) = scaleLetters.contains d := by
    simp [scaleLetters, Member.has, beq_eq_decide]
  rw [run_set]
  split
  · next h => exact one_cons (htest.trans h) k before s taken
  · next h => exact one_stops (.cons (htest.trans (by simpa using h)) s) k before taken

theorem run_mark (k : Onward) (before s : List Char) (taken : List (Nat × List Char)) :
    (Pattern.cat (.many 0 (some 1) .greedy (.char 'I' false)) (.char 'B' false)).run k ⟨before, s, taken⟩ =
      if (takeBinaryMark s).2.head? = some 'B' then
        k ⟨'B' :: ((takeBinaryMark s).1.reverse ++ before), (takeBinaryMark s).2.tail, taken⟩
      else none := by
  rw [Pattern.run, run_optional]
  simp only [run_letter]
  by_cases hI : s.head? = some 'I'
  · obtain ⟨t, rfl⟩ := List.head?_eq_some_iff.mp hI
    have hB : ('I' :: t).head? ≠ some 'B' := by simp
    rw [if_pos hI, if_neg hB, Option.or_none]
    rfl
  · have hmark : takeBinaryMark s = ([], s) := by
      unfold takeBinaryMark
      split
      · exact absurd rfl hI
      · rfl
    rw [if_neg hI, Option.none_or, hmark]
    rfl

/-- The expression of a unit takes the unit in front, in one way. -/
theorem run_unit (k : Onward) (before s : List Char) (taken : List (Nat × List Char)) :
    unitPattern.run k ⟨before, s, taken⟩ =
      (unit? s).bind fun u => k ⟨u.reverse ++ before, s.drop u.length, taken⟩ := by
  have hrun : unitPattern.run k ⟨before, s, taken⟩ =
      (Pattern.cat (.many 0 (some 1) .greedy (.char 'I' false)) (.char 'B' false)).run k
        ⟨(takeScale s).1.reverse ++ before, (takeScale s).2, taken⟩ := by
    rw [unitPattern, Pattern.run, run_optional]
    cases s with
    | nil => rfl
    | cons d s =>
      rw [run_scale, takeScale]
      split
      · next hd =>
        -- a scale letter is neither an I nor a B, so that leaving it out leads nowhere
        have hnone : takeBinaryMark (d :: s) = ([], d :: s) ∧ d ≠ 'B' := by
          simp only [scaleLetters, List.contains_eq_mem, List.mem_cons, List.not_mem_nil, or_false,
            decide_eq_true_eq] at hd
          rcases hd with rfl | rfl | rfl | rfl <;> exact ⟨rfl, by decide⟩
        have hout : (Pattern.cat (.many 0 (some 1) .greedy (.char 'I' false)) (.char 'B' false)).run k
            ⟨before, d :: s, taken⟩ = none := by
          rw [run_mark, hnone.1, if_neg (by simpa using hnone.2)]
        rw [hout, Option.or_none]
        rfl
      · rfl
  obtain ⟨i, r, hscale, hs⟩ := takeScale_eq s
  obtain ⟨marked, r', hmark, hr⟩ := takeBinaryMark_eq r
  rw [hrun, run_mark, unit?, hscale]
  simp only [hmark]
  split
  · next hhead =>
    obtain ⟨t, rfl⟩ := List.head?_eq_some_iff.mp hhead
    have hparts : s = (scale i ++ (if marked = true then ['I'] else []) ++ ['B']) ++ t := by
      rw [hs, hr]
      simp
    rw [Option.bind_some, hparts, List.drop_left]
    simp
  · rfl

/-! ## Sizes -/

theorem run_group (k : Onward) (before s : List Char) (taken : List (Nat × List Char)) :
    (Pattern.group 2 unitPattern).run k ⟨before, s, taken⟩ =
      (unit? s).bind fun u => k ⟨u.reverse ++ before, s.drop u.length, (2, u) :: taken⟩ := by
  rw [Pattern.run, run_unit]
  cases hu : unit? s with
  | none => rfl
  | some u =>
    obtain ⟨i, marked, r, rfl, rfl⟩ := exists_unit hu
    rw [Option.bind_some, Option.bind_some, List.drop_left, take_between]

/-- Behind an amount the expression takes all blanks, and a unit. -/
theorem run_unitBehindBlanks (k : Onward) (before s : List Char) (taken : List (Nat × List Char)) :
    unitBehindBlanks.run k ⟨before, s, taken⟩ = (unit? (trimLeft s)).bind fun u =>
      k ⟨u.reverse ++ ((s.takeWhile isBlank).reverse ++ before), (trimLeft s).drop u.length, (2, u) :: taken⟩ := by
  rw [unitBehindBlanks, Pattern.run, run_many_whole run_blank, if_neg (Nat.not_lt_zero _), run_group, trimLeft]
  intro before c t hc
  rw [run_group, unit?_cons_eq_none (.inl hc)]
  rfl

/-- The size with which a text begins. -/
def sizeHere? (s : List Char) : Option (List Char × List Char) :=
  if s.takeWhile isAmount = [] then none
  else (unit? (trimLeft (s.dropWhile isAmount))).map (s.takeWhile isAmount, ·)

/-- The expression matches where a text begins with a size. -/
theorem matchHere?_expression (before s : List Char) :
    (expression.matchHere? true ⟨before, s, []⟩).map expression.groupTexts
      = (sizeHere? s).map fun m => [some m.1, some m.2] := by
  have htest : (Pattern.set false amountMembers false).run = one isAmount := by
    rw [run_set]
    congr 1
    funext c
    simp [amountMembers, Member.has, Category.has, isAmount, Bool.or_comm]
  have hk : ∀ b c t, isAmount c = true →
      unitBehindBlanks.run some (Place.take ⟨before, s, []⟩ ⟨b, c :: t, []⟩ 1) = none := by
    intro b c t hc
    have hblank : isBlank c = false := by
      rw [Bool.eq_false_iff]
      intro hblank
      rw [not_isAmount_of_isBlank hblank] at hc
      cases hc
    rw [Place.take, run_unitBehindBlanks, trimLeft_cons_of_not_blank hblank, unit?_cons_eq_none (.inr hc)]
    rfl
  have hlength : (s.takeWhile isAmount).length < 1 ↔ s.takeWhile isAmount = [] := by
    rw [Nat.lt_one_iff, List.length_eq_zero_iff]
  have htake := take_between before (s.takeWhile isAmount) (s.dropWhile isAmount) []
    ((s.takeWhile isAmount).reverse ++ before) 1
  rw [List.takeWhile_append_dropWhile] at htake
  -- what is taken for the amount is the first group, and the rest follows
  have hmatch : expression.matchHere? true ⟨before, s, []⟩ =
      (Pattern.many 1 none .greedy (.set false amountMembers false)).run
        (fun q => unitBehindBlanks.run some (Place.take ⟨before, s, []⟩ q 1)) ⟨before, s, []⟩ := rfl
  rw [hmatch, run_many_whole htest hk, sizeHere?]
  simp only [hlength]
  split
  · rfl
  · rw [htake, run_unitBehindBlanks]
    cases unit? (trimLeft (s.dropWhile isAmount)) <;> rfl

/-- The search tries every place in turn. -/
theorem findFrom_eq (amount s : List Char) :
    findFrom amount s =
      (if amount.reverse ++ s.takeWhile isAmount = [] then none
        else (unit? (trimLeft (s.dropWhile isAmount))).map (amount.reverse ++ s.takeWhile isAmount, ·)).or
      (findFrom [] (s.dropWhile isAmount)) := by
  have hw : ∀ c ∈ s.takeWhile isAmount, isAmount c = true := fun c => List.mem_takeWhile_imp
  have hstops : ∀ c ∈ (s.dropWhile isAmount).head?, isAmount c = false := by
    intro c hc
    obtain ⟨t, ht⟩ := List.head?_eq_some_iff.mp hc
    exact Stops.dropWhile isAmount s c t ht
  have hrun := findFrom_amount hw amount (s.dropWhile isAmount)
  rw [List.takeWhile_append_dropWhile] at hrun
  rw [hrun]
  split
  · next h =>
    have hnil : (s.takeWhile isAmount).reverse ++ amount = [] := by simpa using congrArg List.reverse h
    rw [hnil, Option.none_or]
  · next h =>
    have hne : (s.takeWhile isAmount).reverse ++ amount ≠ [] := by
      intro hnil
      exact h (by simpa using congrArg List.reverse hnil)
    rw [findFrom_behind hne hstops, List.reverse_append, List.reverse_reverse]

/-- The search goes on where no size begins. -/
theorem find?_cons (c : Char) (s : List Char) : find? (c :: s) = (sizeHere? (c :: s)).or (find? s) := by
  rw [find?, find?, findFrom]
  split
  · next hc =>
    rw [findFrom_eq, sizeHere?, List.takeWhile_cons_of_pos hc, List.dropWhile_cons_of_pos hc, List.reverse_singleton,
      List.singleton_append, if_neg (List.cons_ne_nil c _)]
    cases hunit : unit? (trimLeft (s.dropWhile isAmount)) with
    | some u => rfl
    | none =>
      -- no unit follows the run, wherever in it the search begins
      have hrest : findFrom [] s = findFrom [] (s.dropWhile isAmount) := by
        rw [findFrom_eq, hunit, Option.map_none, ite_self, Option.none_or]
      rw [hrest]
  · next hc =>
    rw [sizeHere?, List.takeWhile_cons_of_neg hc, if_pos rfl, List.isEmpty_nil, if_pos rfl, Option.none_or]

/-- The first match of the expression has the amount and the unit that the search finds. -/
theorem search?_expression (before s : List Char) :
    (expression.search? true before s).map (fun m => expression.groupTexts m.2)
      = (find? s).map fun m => [some m.1, some m.2] := by
  induction s generalizing before with
  | nil => rfl
  | cons c s ih =>
    have hhere := matchHere?_expression before (c :: s)
    rw [Expression.search?, find?_cons]
    cases hsize : sizeHere? (c :: s) with
    | none =>
      rw [hsize, Option.map_none, Option.map_eq_none_iff] at hhere
      simp only [hhere, Option.none_or, ih]
    | some m =>
      rw [hsize, Option.map_some, Option.map_eq_some_iff] at hhere
      obtain ⟨q, hq, hgroups⟩ := hhere
      simp only [hq, Option.map_some, hgroups, Option.some_or]

end Harvest.Size
