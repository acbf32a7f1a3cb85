import Harvest.Regex.Match

/-
  Matching of the parts that expressions are mostly made of.

  A part that takes one character of a class, again and again, is greedy: it goes on to the end of the run and gives
  characters back only when what follows does not match there. So where what follows matches behind the whole run, or
  nowhere within it, only the whole run counts.
    1. `greedily_run` says so of the loop, `run_many` of a repetition, and `run_many_short` that a run with too few
       characters is refused.
    2. `run_optional` — a part that may be missing is tried first, and left out when nothing follows it.
-/
namespace Harvest.Regex

/-- The next character, if it satisfies a test. -/
def one (test : Char → Bool) (k : Onward) : Onward := fun p => (p.step? test).bind k

theorem one_cons {test : Char → Bool} {c : Char} (hc : test c = true) (k : Onward) (before s : List Char)
    (taken : List (Nat × List Char)) : one test k ⟨before, c :: s, taken⟩ = k ⟨c :: before, s, taken⟩ := by
  simp [one, Place.step?, hc]

/-- A text that does not begin with a character of a class. -/
def Stops (test : Char → Bool) (s : List Char) : Prop := ∀ c r, s = c :: r → test c = false

theorem Stops.nil (test : Char → Bool) : Stops test [] := nofun

theorem Stops.cons {test : Char → Bool} {c : Char} (hc : test c = false) (s : List Char) : Stops test (c :: s) := by
  intro d r h
  cases h
  exact hc

theorem Stops.dropWhile (test : Char → Bool) (s : List Char) : Stops test (s.dropWhile test) := by
  intro c r h
  have hne : s.dropWhile test ≠ [] := by simp [h]
  have hhead := List.head_dropWhile_not test hne
  simpa [h] using hhead

theorem one_stops {test : Char → Bool} {s : List Char} (hs : Stops test s) (k : Onward) (before : List Char)
    (taken : List (Nat × List Char)) : one test k ⟨before, s, taken⟩ = none := by
  cases s with
  | nil => rfl
  | cons c r => simp [one, Place.step?, hs c r rfl]

/-! ## Runs of a class -/

section
variable {test : Char → Bool} {k : Onward} {least : Nat} {taken : List (Nat × List Char)}

/-- Behind a run `w`, what follows matches, or it matches nowhere within the run. -/
def Decides (k : Onward) (before w r : List Char) (taken : List (Nat × List Char)) : Prop :=
  (k ⟨w.reverse ++ before, r, taken⟩).isSome ∨
    ∀ u v, w = u ++ v → v ≠ [] → k ⟨u.reverse ++ before, v ++ r, taken⟩ = none

theorem Decides.tail {before w r : List Char} {c : Char} (h : Decides k before (c :: w) r taken) :
    Decides k (c :: before) w r taken := by
  rcases h with h | h
  · left
    simpa using h
  · right
    intro u v hw hv
    have hcons := h (c :: u) v (by simp [hw]) hv
    simpa using hcons

/-- The loop takes the whole run. By induction on the run; each round begins further on than the one before it, which
`hlast` keeps. -/
theorem greedily_run {r : List Char} (hr : Stops test r) :
    ∀ (w before : List Char) (fuel n : Nat) (last : Option Nat), (∀ c ∈ w, test c = true) → w.length < fuel →
      (∀ m, last = some m → (w ++ r).length < m) → least ≤ n + w.length → Decides k before w r taken →
      greedily (one test) least none k fuel n last ⟨before, w ++ r, taken⟩ = k ⟨w.reverse ++ before, r, taken⟩ := by
  intro w
  induction w with
  | nil =>
    intro before fuel n last _ hfuel _ hleast _
    obtain ⟨fuel, rfl⟩ := Nat.exists_eq_add_of_lt hfuel
    simp only [List.nil_append, List.length_nil, Nat.zero_add, List.reverse_nil] at hleast ⊢
    rw [greedily, if_neg (by omega), one_stops hr]
    split <;> rfl
  | cons c w ih =>
    intro before fuel n last hw hfuel hlast hleast hk
    obtain ⟨fuel, rfl⟩ := Nat.exists_eq_add_of_lt (Nat.zero_lt_of_lt hfuel)
    have hc : test c = true := hw c List.mem_cons_self
    have hw' : ∀ d ∈ w, test d = true := fun d hd => hw d (List.mem_cons_of_mem c hd)
    simp only [List.length_cons, List.cons_append] at hfuel hlast hleast ⊢
    simp only [Nat.zero_add] at hfuel ⊢
    rw [greedily, one_cons hc, one_cons hc, List.reverse_cons, List.append_assoc, List.singleton_append]
    have hround : ∀ last', (∀ m, last' = some m → (w ++ r).length < m) →
        greedily (one test) least none k fuel (n + 1) last' ⟨c :: before, w ++ r, taken⟩
          = k ⟨w.reverse ++ c :: before, r, taken⟩ := by
      intro last' hlast'
      exact ih (c :: before) fuel (n + 1) last' hw' (by omega) hlast' (by omega) hk.tail
    split
    · exact hround last fun m hm => by have := hlast m hm; omega
    · have hne : (last != some ((w ++ r).length + 1)) = true := by
        rw [bne_iff_ne]
        intro he
        have := hlast _ he
        omega
      rw [hround _ (by simp)]
      simp only [Option.all_none, List.length_cons, hne, Bool.and_self, if_true]
      -- when nothing follows the whole run, nothing follows the empty one either
      rcases hk with hk | hk
      · obtain ⟨q, hq⟩ := Option.isSome_iff_exists.mp hk
        simp only [List.reverse_cons, List.append_assoc, List.singleton_append] at hq
        rw [hq]
      · have hnone := hk [] (c :: w) rfl (List.cons_ne_nil c w)
        simp only [List.reverse_nil, List.nil_append, List.cons_append] at hnone
        cases h : k ⟨w.reverse ++ c :: before, r, taken⟩ with
        | none => exact hnone
        | some q => rfl

/-- A run that is too short is refused. -/
theorem greedily_short {r : List Char} (hr : Stops test r) :
    ∀ (w before : List Char) (fuel n : Nat) (last : Option Nat), (∀ c ∈ w, test c = true) → w.length < fuel →
      n + w.length < least → greedily (one test) least none k fuel n last ⟨before, w ++ r, taken⟩ = none := by
  intro w
  induction w with
  | nil =>
    intro before fuel n last _ hfuel hleast
    obtain ⟨fuel, rfl⟩ := Nat.exists_eq_add_of_lt hfuel
    rw [List.nil_append, greedily, if_pos (by simpa using hleast), one_stops hr]
  | cons c w ih =>
    intro before fuel n last hw hfuel hleast
    obtain ⟨fuel, rfl⟩ := Nat.exists_eq_add_of_lt (Nat.zero_lt_of_lt hfuel)
    simp only [List.length_cons] at hfuel hleast
    rw [List.cons_append, Nat.zero_add, greedily, if_pos (by omega), one_cons (hw c List.mem_cons_self)]
    exact ih _ fuel (n + 1) last (fun d hd => hw d (List.mem_cons_of_mem c hd)) (by omega) (by omega)

variable {f : Pattern} {before w r : List Char}

/-- A repetition takes the whole run in front of it. -/
theorem run_many (hf : f.run = one test) (hw : ∀ c ∈ w, test c = true) (hr : Stops test r) (hleast : least ≤ w.length)
    (hk : Decides k before w r taken) :
    (Pattern.many least none .greedy f).run k ⟨before, w ++ r, taken⟩ = k ⟨w.reverse ++ before, r, taken⟩ := by
  simp only [Pattern.run, hf]
  refine greedily_run hr w before _ 0 none hw ?_ nofun (by omega) hk
  simp only [rounds, List.length_append]
  omega

theorem run_many_short (hf : f.run = one test) (hw : ∀ c ∈ w, test c = true) (hr : Stops test r)
    (hleast : w.length < least) : (Pattern.many least none .greedy f).run k ⟨before, w ++ r, taken⟩ = none := by
  simp only [Pattern.run, hf]
  refine greedily_short hr w before _ 0 none hw ?_ (by omega)
  simp only [rounds, List.length_append]
  omega

/-- Where what follows cannot begin within a run, only the whole run in front counts, if it is long enough. -/
theorem run_many_whole (hf : f.run = one test) (hk : ∀ b c t, test c = true → k ⟨b, c :: t, taken⟩ = none)
    (before s : List Char) :
    (Pattern.many least none .greedy f).run k ⟨before, s, taken⟩ =
      if (s.takeWhile test).length < least then none
      else k ⟨(s.takeWhile test).reverse ++ before, s.dropWhile test, taken⟩ := by
  have hw : ∀ c ∈ s.takeWhile test, test c = true := List.all_eq_true.mp List.all_takeWhile
  have hsplit : s.takeWhile test ++ s.dropWhile test = s := List.takeWhile_append_dropWhile
  split
  · next hshort =>
    have hrun : (Pattern.many least none .greedy f).run k
        ⟨before, s.takeWhile test ++ s.dropWhile test, taken⟩ = none :=
      run_many_short hf hw (.dropWhile test s) hshort
    rwa [hsplit] at hrun
  · next hlong =>
    have hdecides : Decides k before (s.takeWhile test) (s.dropWhile test) taken := by
      right
      intro u v huv hv
      obtain ⟨c, v, rfl⟩ := List.exists_cons_of_ne_nil hv
      exact hk _ c _ (hw c (by simp [huv]))
    have hrun := run_many hf hw (.dropWhile test s) (Nat.le_of_not_lt hlong) hdecides
    rwa [hsplit] at hrun

end

/-! ## Other parts -/

/-- A part that may be missing is tried first. -/
theorem run_optional (f : Pattern) (k : Onward) (p : Place) :
    (Pattern.many 0 (some 1) .greedy f).run k p = (f.run k p).or (k p) := by
  have hlast : ∀ m last, greedily f.run 0 (some 1) k (m + 1) 1 last = k := by
    intro m last
    funext q
    simp [greedily]
  have hrounds : rounds 0 p = p.rest.length + 1 + 1 := by simp [rounds]
  simp only [Pattern.run, hrounds]
  rw [greedily]
  simp only [hlast, Nat.lt_irrefl, if_false, Option.all_some, Nat.zero_lt_one, decide_true, Bool.true_and, Nat.zero_add]
  cases f.run k p <;> simp

theorem run_char (c : Char) : (Pattern.char c false).run = one (c == ·) := by
  have hsame : sameChar false c = (c == ·) := by
    funext d
    simp [sameChar]
  funext k p
  rw [Pattern.run, hsame, one]

theorem run_set (outside : Bool) (ms : List Member) :
    (Pattern.set outside ms false).run = one fun c => ms.any (·.has c) != outside := by
  have hset : setHas outside ms false = fun c => ms.any (·.has c) != outside := by
    funext c
    simp [setHas]
  funext k p
  rw [Pattern.run, hset, one]

/-- The class of blanks is that of `trim` and `words`. -/
theorem run_blank : (Pattern.set false [.category .blank false false] false).run = one Text.isBlank := by
  rw [run_set]
  congr 1
  funext c
  simp [Member.has, Category.has]

/-- A group takes what lies between its ends. -/
theorem take_between (before w r : List Char) (taken : List (Nat × List Char)) (behind : List Char) (i : Nat) :
    (⟨before, w ++ r, taken⟩ : Place).take ⟨behind, r, taken⟩ i = ⟨behind, r, (i, w) :: taken⟩ := by
  simp [Place.take, Place.between]

end Harvest.Regex
