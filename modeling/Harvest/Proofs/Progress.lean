import Harvest.Regex.Match

/-
  Matching gets ahead, and comes to an end.

  A part of an expression hands on no place that lies before its own, and what it comes to hangs only on what is made of the
  places ahead (`Advances`, with one lemma for each way to put parts together; `Pattern.advances`). A round of a repetition
  does not begin where the round before it began, so there are no more rounds than places ahead.
    1. `Pattern.settles` — the bound on the rounds of a repetition decides nothing: a larger one changes no match.
    2. `cuts_split` — cutting a text at the matches ends by itself (`Expression.Cuts`, which has no bound), because each
       cut lies ahead of the cut before it, or is the first at its place to take nothing (`search_ahead`).
-/
namespace Harvest.Regex
open Harvest.Text

/-! ## Places ahead -/

/-- Whether a part hands on only places that do not lie before its own, and asks for no others. -/
structure Advances (part : Onward → Onward) : Prop where
  handsOn : ∀ k p r, part k p = some r → ∃ q : Place, q.rest.length ≤ p.rest.length ∧ k q = some r
  asksOnly : ∀ k k' p, (∀ q : Place, q.rest.length ≤ p.rest.length → k q = k' q) → part k p = part k' p

namespace Advances
variable {part part' : Onward → Onward}

theorem self : Advances fun k p => k p where
  handsOn _ p _ hr := ⟨p, Nat.le_refl _, hr⟩
  asksOnly _ _ p hk := hk p (Nat.le_refl _)

theorem none : Advances fun _ _ => Option.none where
  handsOn _ _ _ hr := by cases hr
  asksOnly _ _ _ _ := rfl

/-- Going to one place ahead, if there is one. -/
theorem move {next : Place → Option Place} (h : ∀ p q, next p = some q → q.rest.length ≤ p.rest.length) :
    Advances fun k p => (next p).bind k where
  handsOn k p r hr := by
    obtain ⟨q, hq, hkq⟩ := Option.bind_eq_some_iff.mp hr
    exact ⟨q, h p q hq, hkq⟩
  asksOnly k k' p hk := by
    cases hq : next p with
    | none => rfl
    | some q => exact hk q (h p q hq)

/-- One part behind another. -/
theorem comp (h : Advances part) (h' : Advances part') : Advances fun k => part (part' k) where
  handsOn k p r hr := by
    obtain ⟨q, hq, hpart⟩ := h.handsOn _ p r hr
    obtain ⟨q', hq', hk⟩ := h'.handsOn k q r hpart
    exact ⟨q', Nat.le_trans hq' hq, hk⟩
  asksOnly k k' p hk := by
    apply h.asksOnly
    intro q hq
    apply h'.asksOnly
    intro q' hq'
    exact hk q' (Nat.le_trans hq' hq)

/-- One part where the other does not lead on. -/
theorem orElse (h : Advances part) (h' : Advances part') :
    Advances fun k p => match part k p with
      | some q => some q
      | Option.none => part' k p where
  handsOn k p r hr := by
    cases hp : part k p with
    | some q =>
      rw [hp] at hr
      cases hr
      exact h.handsOn k p _ hp
    | none =>
      rw [hp] at hr
      exact h'.handsOn k p r hr
  asksOnly k k' p hk := by rw [h.asksOnly k k' p hk, h'.asksOnly k k' p hk]

/-- One of two parts, by what is found at the place. -/
theorem ite {test : Place → Prop} [DecidablePred test] (h : Advances part) (h' : Advances part') :
    Advances fun k p => if test p then part k p else part' k p where
  handsOn k p r hr := by
    by_cases hp : test p
    · rw [if_pos hp] at hr
      exact h.handsOn k p r hr
    · rw [if_neg hp] at hr
      exact h'.handsOn k p r hr
  asksOnly k k' p hk := by rw [h.asksOnly k k' p hk, h'.asksOnly k k' p hk]

/-- A part for each place. -/
theorem there {at_ : Place → Onward → Onward} (h : ∀ p, Advances (at_ p)) : Advances fun k p => at_ p k p where
  handsOn k p r hr := (h p).handsOn k p r hr
  asksOnly k k' p hk := (h p).asksOnly k k' p hk

/-- Something noted about a place, which stays where it is. -/
theorem noted (h : Advances part) {note : Place → Place → Place} (hnote : ∀ p q, (note p q).rest = q.rest) :
    Advances fun k p => part (fun q => k (note p q)) p where
  handsOn k p r hr := by
    obtain ⟨q, hq, hk⟩ := h.handsOn _ p r hr
    exact ⟨note p q, by rwa [hnote], hk⟩
  asksOnly k k' p hk := by
    apply h.asksOnly
    intro q hq
    exact hk _ (by rwa [hnote])

/-- A look at what stands at a place, or a look for what does not stand there; only what groups took is kept of it. -/
theorem look (look : Place → Option Place) (negative : Bool) :
    Advances fun k p =>
      match look p, negative with
      | some q, false => k { p with taken := q.taken }
      | Option.none, true => k p
      | _, _ => Option.none := by
  have hlook : ∀ p, Advances fun k (p' : Place) =>
      match look p, negative with
      | some q, false => k { p' with taken := q.taken }
      | Option.none, true => k p'
      | _, _ => Option.none := by
    intro p
    cases look p with
    | some q =>
      cases negative with
      | false =>
        have hkept : Advances fun k (p' : Place) => (some { p' with taken := q.taken }).bind k :=
          move fun p q hq => by cases hq; exact Nat.le_refl _
        exact hkept
      | true => exact none
    | none =>
      cases negative with
      | false => exact none
      | true => exact self
  exact there hlook

/-- What a part reaches by itself does not lie before the place where it began. -/
theorem reached (h : Advances part) {p q : Place} (hq : part some p = some q) : q.rest.length ≤ p.rest.length := by
  obtain ⟨q', hle, hq'⟩ := h.handsOn some p q hq
  cases hq'
  exact hle

/-- By induction on the bound: each round hands on to the next. -/
theorem greedily (h : Advances part) (least : Nat) (most : Option Nat) (fuel n : Nat) (last : Option Nat) :
    Advances fun k => Regex.greedily part least most k fuel n last := by
  induction fuel generalizing n last with
  | zero => exact self
  | succ fuel ih =>
    have hround := fun last => comp h (ih (n + 1) last)
    have hmore := there fun p : Place => hround (some p.rest.length)
    exact ite (hround last) (ite (orElse hmore self) self)

theorem reluctantly (h : Advances part) (least : Nat) (most : Option Nat) (fuel n : Nat) (last : Option Nat) :
    Advances fun k => Regex.reluctantly part least most k fuel n last := by
  induction fuel generalizing n last with
  | zero => exact self
  | succ fuel ih =>
    have hround := fun last => comp h (ih (n + 1) last)
    have hmore := there fun p : Place => hround (some p.rest.length)
    exact ite (hround last) (orElse self (ite hmore none))

end Advances

theorem Place.step_ahead {test : Char → Bool} {p q : Place} (h : p.step? test = some q) :
    q.rest.length ≤ p.rest.length := by
  unfold Place.step? at h
  split at h
  · cases h
  · next c s hs =>
    split at h
    · cases h
      simp [hs]
    · cases h

theorem Place.stepText_ahead {same : Char → Char → Bool} {t : List Char} {p q : Place} (h : p.stepText? same t = some q) :
    q.rest.length ≤ p.rest.length := by
  induction t generalizing p with
  | nil =>
    cases h
    exact Nat.le_refl _
  | cons c t ih =>
    obtain ⟨p', hstep, hrest⟩ := Option.bind_eq_some_iff.mp h
    exact Nat.le_trans (ih hrest) (step_ahead hstep)

/-- One case for each kind of part. -/
theorem Pattern.advances (f : Pattern) : Advances f.run := by
  induction f with
  | nothing => exact .self
  | char c anyCase => exact .move fun p q => Place.step_ahead
  | any lines => exact .move fun p q => Place.step_ahead
  | set outside ms anyCase => exact .move fun p q => Place.step_ahead
  | anchor a => exact .ite .self .none
  | cat f g hf hg =>
    have h := Advances.comp hf hg
    exact h
  | alt f g hf hg => exact .orElse hf hg
  | many least most greed f hf =>
    have hgreedy := fun p => hf.greedily least most (rounds least p) 0 none
    cases greed with
    | greedy =>
      have h := Advances.there hgreedy
      exact h
    | reluctant =>
      have h := Advances.there fun p => hf.reluctantly least most (rounds least p) 0 none
      exact h
    | possessive => exact .move fun p q => (hgreedy p).reached
  | group i f hf =>
    have h : Advances fun k p => f.run (fun q => k (p.take q i)) p := hf.noted fun _ _ => rfl
    exact h
  | enclosed f hf => exact hf
  | atomic f hf => exact .move fun p q => hf.reached
  | again i anyCase =>
    have htext : (again i anyCase).run = fun k p => ((p.group? i).bind fun t => p.stepText? (sameChar anyCase) t).bind k := by
      funext k p
      rw [Pattern.run]
      cases p.group? i <;> rfl
    rw [htext]
    refine .move fun p q hq => ?_
    obtain ⟨t, -, ht⟩ := Option.bind_eq_some_iff.mp hq
    exact Place.stepText_ahead ht
  | ahead negative f hf => exact .look (f.run some) negative
  | behind negative width f hf => exact .look (fun p => (p.back? width).bind (f.run some)) negative
  | branch i f g hf hg => exact .ite hf hg

/-! ## Rounds -/

/-- The rounds that a repetition can still make: those it has to make, and one for each place ahead where the round
before did not begin. -/
def roundsLeft (least n : Nat) (last : Option Nat) (p : Place) : Nat :=
  (least - n) + if last = some p.rest.length then 0 else p.rest.length + 1

section
variable {part : Onward → Onward} {least n : Nat} {last : Option Nat} {p q : Place}

/-- A round that has to be made. -/
theorem roundsLeft_of_lt (hn : n < least) (hq : q.rest.length ≤ p.rest.length) :
    roundsLeft least (n + 1) none q < roundsLeft least n none p := by
  simp only [roundsLeft, reduceCtorEq, if_false]
  omega

/-- A round that may be made: the next begins farther ahead, or is not tried. -/
theorem roundsLeft_of_le (hn : least ≤ n) (hlast : last ≠ some p.rest.length) (hq : q.rest.length ≤ p.rest.length) :
    roundsLeft least (n + 1) (some p.rest.length) q < roundsLeft least n last p := by
  rw [roundsLeft, roundsLeft, if_neg hlast]
  split
  · omega
  · next hne =>
    have hshort : q.rest.length ≠ p.rest.length := fun h => hne (congrArg some h.symm)
    omega

theorem of_roundsLeft_eq_zero (h : roundsLeft least n last p = 0) : least ≤ n ∧ last = some p.rest.length := by
  rw [roundsLeft] at h
  split at h
  · next hlast => exact ⟨by omega, hlast⟩
  · omega

/-- Rounds that stop where one began as the one before did, and else hang on nothing but the next ones ahead, are the same
under every bound above those left, by induction on these. -/
theorem bound_decides_nothing {loop : Nat → Nat → Option Nat → Onward}
    (hstop : ∀ {m n last p}, least ≤ n → last = some p.rest.length → loop m n last p = loop 0 n last p)
    (hround : ∀ {m m' n last p},
      (n < least → ∀ q : Place, q.rest.length ≤ p.rest.length → loop m (n + 1) last q = loop m' (n + 1) last q) →
      (least ≤ n → last ≠ some p.rest.length → ∀ q : Place, q.rest.length ≤ p.rest.length →
        loop m (n + 1) (some p.rest.length) q = loop m' (n + 1) (some p.rest.length) q) →
      loop (m + 1) n last p = loop (m' + 1) n last p)
    {m m' : Nat} (hn : n < least → last = none) (hm : roundsLeft least n last p ≤ m) (hm' : m ≤ m') :
    loop m' n last p = loop m n last p := by
  induction m generalizing m' n last p with
  | zero =>
    obtain ⟨hle, hlast⟩ := of_roundsLeft_eq_zero (Nat.le_zero.mp hm)
    exact hstop hle hlast
  | succ m ih =>
    obtain ⟨m', rfl⟩ := Nat.exists_eq_succ_of_ne_zero (Nat.ne_zero_of_lt hm')
    have hless := Nat.le_of_succ_le_succ hm'
    refine hround (fun hlt q hq => ?_) (fun hle hlast q hq => ?_)
    · obtain rfl := hn hlt
      have hleft := roundsLeft_of_lt hlt hq
      exact ih (fun _ => rfl) (by omega) hless
    · have hleft := roundsLeft_of_le hle hlast hq
      exact ih (fun _ => by omega) (by omega) hless

theorem greedily_bound (h : Advances part) (most : Option Nat) (k : Onward) {m m' : Nat} (hn : n < least → last = none)
    (hm : roundsLeft least n last p ≤ m) (hm' : m ≤ m') :
    greedily part least most k m' n last p = greedily part least most k m n last p := by
  refine bound_decides_nothing ?_ ?_ hn hm hm'
  · intro m n last p hle hlast
    cases m with
    | zero => rfl
    | succ m => simp [greedily, Nat.not_lt.mpr hle, hlast]
  · intro m m' n last p hmust hmay
    rw [greedily, greedily]
    by_cases hlt : n < least
    · rw [if_pos hlt, if_pos hlt]
      exact h.asksOnly _ _ p (hmust hlt)
    · rw [if_neg hlt, if_neg hlt]
      split
      · next htest =>
        have hlast : last ≠ some p.rest.length := by simpa using (Bool.and_eq_true_iff.mp htest).2
        rw [h.asksOnly _ _ p (hmay (Nat.le_of_not_lt hlt) hlast)]
      · rfl

theorem reluctantly_bound (h : Advances part) (most : Option Nat) (k : Onward) {m m' : Nat}
    (hn : n < least → last = none) (hm : roundsLeft least n last p ≤ m) (hm' : m ≤ m') :
    reluctantly part least most k m' n last p = reluctantly part least most k m n last p := by
  refine bound_decides_nothing ?_ ?_ hn hm hm'
  · intro m n last p hle hlast
    cases m with
    | zero => rfl
    | succ m =>
      simp only [reluctantly, Nat.not_lt.mpr hle, hlast, if_false, bne_self_eq_false, Bool.and_false]
      cases k p <;> rfl
  · intro m m' n last p hmust hmay
    rw [reluctantly, reluctantly]
    by_cases hlt : n < least
    · rw [if_pos hlt, if_pos hlt]
      exact h.asksOnly _ _ p (hmust hlt)
    · rw [if_neg hlt, if_neg hlt]
      by_cases htest : (most.all (n < ·) && last != some p.rest.length) = true
      · have hlast : last ≠ some p.rest.length := by simpa using (Bool.and_eq_true_iff.mp htest).2
        rw [h.asksOnly _ _ p (hmay (Nat.le_of_not_lt hlt) hlast)]
      · rw [if_neg htest, if_neg htest]

end

/-- A repetition comes to an end within the rounds that are allowed it: however many more are allowed, it matches the
same. -/
theorem Pattern.settles (f : Pattern) (least : Nat) (most : Option Nat) (k : Onward) (p : Place) {m : Nat}
    (hm : rounds least p ≤ m) :
    greedily f.run least most k m 0 none p = greedily f.run least most k (rounds least p) 0 none p ∧
      reluctantly f.run least most k m 0 none p = reluctantly f.run least most k (rounds least p) 0 none p := by
  have hrounds : roundsLeft least 0 none p ≤ rounds least p := by
    simp only [roundsLeft, rounds, reduceCtorEq, if_false]
    omega
  exact ⟨greedily_bound f.advances most k (fun _ => rfl) hrounds hm,
    reluctantly_bound f.advances most k (fun _ => rfl) hrounds hm⟩

/-! ## Cuts -/

namespace Expression
variable {e : Expression} {empty : Bool}

/-- A match ends where it begins or ahead of that, and the former only where this is allowed. -/
theorem matchHere_ahead {p q : Place} (h : e.matchHere? empty p = some q) :
    q.rest.length ≤ p.rest.length ∧ (q.sameAs p = true → empty = true) := by
  obtain ⟨q', hle, hq'⟩ := e.pattern.advances.handsOn _ _ _ h
  split at hq'
  · cases hq'
  · next htest =>
    cases hq'
    refine ⟨hle, fun hsame => ?_⟩
    simpa [hsame] using htest

/-- The first match begins at the place where the search begins or ahead of it, and takes nothing at that place only where
this is allowed. -/
theorem search_ahead {before s : List Char} {a b : Place} (h : e.search? empty before s = some (a, b)) :
    b.rest.length ≤ a.rest.length ∧ a.rest.length ≤ s.length ∧
      (b.sameAs a = true → a.rest.length = s.length → empty = true) := by
  induction s generalizing empty before with
  | nil =>
    obtain ⟨q, hq, hab⟩ := Option.map_eq_some_iff.mp h
    cases hab
    obtain ⟨hle, hempty⟩ := matchHere_ahead hq
    exact ⟨hle, Nat.le_refl _, fun hsame _ => hempty hsame⟩
  | cons c s ih =>
    rw [search?] at h
    split at h
    · next q hq =>
      cases h
      obtain ⟨hle, hempty⟩ := matchHere_ahead hq
      exact ⟨hle, Nat.le_refl _, fun hsame _ => hempty hsame⟩
    · obtain ⟨hle, hfrom, -⟩ := ih h
      rw [List.length_cons]
      exact ⟨hle, by omega, fun _ hlen => by omega⟩

/-- How a text is cut at the matches from a place on, as long as there is one; `empty` allows the next to take nothing. -/
inductive Cuts (e : Expression) : Bool → Place → List (Option (List Char)) → Prop where
  | done {empty p} : e.search? empty p.before p.rest = none → Cuts e empty p [some p.rest]
  | cut {empty p a b ps} : e.search? empty p.before p.rest = some (a, b) → Cuts e (!b.sameAs a) b ps →
      Cuts e empty p (some (p.between a) :: (e.groupTexts b ++ ps))

/-- Each cut leaves fewer places for further cuts, where a place that may be cut without anything being taken counts for
one more. -/
theorem cuts_splitFrom {fuel : Nat} {p : Place} (h : 2 * p.rest.length + empty.toNat < fuel) :
    e.Cuts empty p (e.splitFrom fuel empty p) := by
  induction fuel generalizing empty p with
  | zero => omega
  | succ fuel ih =>
    rw [splitFrom]
    cases hs : e.search? empty p.before p.rest with
    | none => exact .done hs
    | some ab =>
      obtain ⟨a, b⟩ := ab
      obtain ⟨hle, hfrom, hempty⟩ := search_ahead hs
      refine .cut hs (ih ?_)
      cases hsame : b.sameAs a with
      | true =>
        have hlen : b.rest.length = a.rest.length := by simpa [Place.sameAs] using hsame
        by_cases hp : a.rest.length = p.rest.length
        · rw [hempty hsame hp] at h
          simp only [Bool.not_true, Bool.toNat_false, Bool.toNat_true] at h ⊢
          omega
        · simp only [Bool.not_true, Bool.toNat_false]
          omega
      | false =>
        have hlen : b.rest.length ≠ a.rest.length := by simpa [Place.sameAs] using hsame
        simp only [Bool.not_false, Bool.toNat_true]
        omega

/-- The matches at which a text is cut from a place on, each by where it ends. -/
inductive CutsAt (e : Expression) : Bool → Place → Place → Prop where
  | here {empty p a b} : e.search? empty p.before p.rest = some (a, b) → CutsAt e empty p b
  | later {empty p a b q} : e.search? empty p.before p.rest = some (a, b) → CutsAt e (!b.sameAs a) b q → CutsAt e empty p q

/-- The first piece is a text. -/
theorem Cuts.exists_first {p : Place} {ps : List (Option (List Char))} (h : e.Cuts empty p ps) :
    ∃ f rest, ps = some f :: rest := by
  cases h with
  | done => exact ⟨_, _, rfl⟩
  | cut => exact ⟨_, _, rfl⟩

theorem none_mem_groupTexts {q : Place} : none ∈ e.groupTexts q ↔ ∃ i, 1 ≤ i ∧ i ≤ e.groups ∧ q.group? i = none := by
  rw [groupTexts, List.mem_map]
  constructor
  · rintro ⟨i, hi, hnone⟩
    exact ⟨i + 1, by omega, List.mem_range.mp hi, hnone⟩
  · rintro ⟨i, hpos, hi, hnone⟩
    obtain ⟨i, rfl⟩ := Nat.exists_eq_succ_of_ne_zero (Nat.ne_zero_of_lt hpos)
    exact ⟨i, List.mem_range.mpr hi, hnone⟩

/-- A piece is missing exactly where a group took no part in a match. -/
theorem Cuts.none_mem_iff {p : Place} {ps : List (Option (List Char))} (h : e.Cuts empty p ps) :
    none ∈ ps ↔ ∃ q, e.CutsAt empty p q ∧ ∃ i, 1 ≤ i ∧ i ≤ e.groups ∧ q.group? i = none := by
  induction h with
  | done hs =>
    constructor
    · intro hmem
      simp at hmem
    · rintro ⟨q, hq, -⟩
      cases hq with
      | here hs' => rw [hs] at hs'; cases hs'
      | later hs' => rw [hs] at hs'; cases hs'
  | @cut empty p a b ps hs hcuts ih =>
    have hpieces : none ∈ some (p.between a) :: (e.groupTexts b ++ ps) ↔ none ∈ e.groupTexts b ∨ none ∈ ps := by simp
    rw [hpieces, ih, none_mem_groupTexts]
    constructor
    · rintro (hgroup | ⟨q, hq, hgroup⟩)
      · exact ⟨b, .here hs, hgroup⟩
      · exact ⟨q, .later hs hq, hgroup⟩
    · rintro ⟨q, hq, hgroup⟩
      cases hq with
      | here hs' =>
        rw [hs] at hs'
        cases hs'
        exact .inl hgroup
      | later hs' hq =>
        rw [hs] at hs'
        cases hs'
        exact .inr ⟨q, hq, hgroup⟩

/-- Cutting a text at the matches ends, with the pieces that `split` gives. -/
theorem cuts_split (e : Expression) (s : List Char) : e.Cuts true (Place.front s) (e.split s) := by
  refine cuts_splitFrom ?_
  have hlen : (Place.front s).rest.length = s.length := rfl
  rw [hlen, Bool.toNat_true]
  omega

end Expression

end Harvest.Regex
