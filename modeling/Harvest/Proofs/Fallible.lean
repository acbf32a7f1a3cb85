import Mathlib.Data.List.Forall2

/-
  Computations that may fail, taken apart: what a success of two steps in a row, or of one step for each member of a
  list, says about the steps. Two computations agree when both fail in the same way or both give what belongs together
  (`Agree`); they agree when their steps do. They may also agree but for faults of the second, which has a step more
  (`AgreeUnless`). The faults of a computation are of a kind (`FailsOnly`) when those of its
  steps are.
-/
namespace Harvest
variable {ε α β : Type}

@[simp] theorem ok_bind (a : α) (f : α → Except ε β) : (Except.ok a >>= f) = f a := rfl

@[simp] theorem error_bind (e : ε) (f : α → Except ε β) : (Except.error e >>= f) = .error e := rfl

@[simp] theorem pure_eq_ok (a : α) : (pure a : Except ε α) = .ok a := rfl

/-- Two steps succeed when the first does and the second does with its result. -/
theorem bind_eq_ok {r : Except ε α} {f : α → Except ε β} {b : β} :
    (r >>= f) = .ok b ↔ ∃ a, r = .ok a ∧ f a = .ok b := by
  cases r with
  | error e => simp
  | ok a => simp

theorem map_eq_ok {r : Except ε α} {f : α → β} {b : β} : r.map f = .ok b ↔ ∃ a, r = .ok a ∧ f a = b := by
  cases r with
  | error e => simp [Except.map]
  | ok a => simp [Except.map]

theorem map_eq_error {r : Except ε α} {f : α → β} {e : ε} : r.map f = .error e ↔ r = .error e := by
  cases r with
  | ok a => simp [Except.map]
  | error e' => simp [Except.map]

theorem mapError_eq_ok {δ : Type} {r : Except ε α} {f : ε → δ} {a : α} : r.mapError f = .ok a ↔ r = .ok a := by
  cases r with
  | error e => simp [Except.mapError]
  | ok a => simp [Except.mapError]

theorem mapError_eq_error {δ : Type} {r : Except ε α} {f : ε → δ} {d : δ} :
    r.mapError f = .error d ↔ ∃ e, r = .error e ∧ f e = d := by
  cases r with
  | error e => simp [Except.mapError]
  | ok a => simp [Except.mapError]

/-- One step for each member of a list succeeds when each of them does. -/
theorem mapM_eq_ok {f : α → Except ε β} {as : List α} {bs : List β} :
    as.mapM f = .ok bs ↔ List.Forall₂ (fun a b => f a = .ok b) as bs := by
  induction as generalizing bs with
  | nil => simp [eq_comm]
  | cons a as ih =>
    rw [List.mapM_cons, List.forall₂_cons_left_iff, bind_eq_ok]
    constructor
    · rintro ⟨b, hb, h⟩
      obtain ⟨cs, hcs, h⟩ := bind_eq_ok.mp h
      exact ⟨b, cs, hb, ih.mp hcs, by simpa using h.symm⟩
    · rintro ⟨b, cs, hb, hcs, rfl⟩
      exact ⟨b, hb, bind_eq_ok.mpr ⟨cs, ih.mpr hcs, rfl⟩⟩

/-- One step for each member of a list, none of which fails. -/
theorem mapM_ok {f : α → Except ε β} {g : α → β} {as : List α} (h : ∀ a ∈ as, f a = .ok (g a)) :
    as.mapM f = .ok (as.map g) :=
  mapM_eq_ok.mpr (List.forall₂_map_right_iff.mpr (List.forall₂_same.mpr h))

theorem findSomeM?_ok {f : α → Except ε (Option β)} {g : α → Option β} {as : List α} (h : ∀ a ∈ as, f a = .ok (g a)) :
    as.findSomeM? f = .ok (as.findSome? g) := by
  induction as with
  | nil => rfl
  | cons a as ih =>
    obtain ⟨ha, has⟩ := List.forall_mem_cons.mp h
    rw [List.findSomeM?, ha, ok_bind, List.findSome?_cons]
    cases g a with
    | none => exact ih has
    | some b => rfl

/-- What a search through a list finds is what is found at one of its members. -/
theorem exists_of_findSomeM? {f : α → Except ε (Option β)} {as : List α} {b : β} (h : as.findSomeM? f = .ok (some b)) :
    ∃ a ∈ as, f a = .ok (some b) := by
  induction as with
  | nil => cases h
  | cons a as ih =>
    rw [List.findSomeM?] at h
    obtain ⟨found, ha, h⟩ := bind_eq_ok.mp h
    cases found with
    | none =>
      obtain ⟨c, hc, hfound⟩ := ih h
      exact ⟨c, List.mem_cons_of_mem a hc, hfound⟩
    | some c =>
      cases h
      exact ⟨a, List.mem_cons_self, ha⟩

/-- Each member of the second of two related lists is related to a member of the first. -/
theorem exists_of_forall₂ {R : α → β → Prop} {as : List α} {bs : List β} (h : List.Forall₂ R as bs) {b : β}
    (hb : b ∈ bs) : ∃ a ∈ as, R a b := by
  induction h with
  | nil => simp at hb
  | cons hab _ ih =>
    rcases List.mem_cons.mp hb with rfl | hb
    · exact ⟨_, by simp, hab⟩
    · obtain ⟨a, ha, hr⟩ := ih hb
      exact ⟨a, by simp [ha], hr⟩

/-- Each result is that of some step. -/
theorem exists_of_mapM {f : α → Except ε β} {as : List α} {bs : List β} (h : as.mapM f = .ok bs) {b : β}
    (hb : b ∈ bs) : ∃ a ∈ as, f a = .ok b := exists_of_forall₂ (mapM_eq_ok.mp h) hb

/-- Two computations fail in the same way, or give what is related. -/
inductive Agree (R : α → β → Prop) : Except ε α → Except ε β → Prop where
  | error (e : ε) : Agree R (.error e) (.error e)
  | ok {a : α} {b : β} (h : R a b) : Agree R (.ok a) (.ok b)

namespace Agree
variable {α' β' : Type} {R : α → β → Prop} {S : α' → β' → Prop}

theorem bind {r : Except ε α} {s : Except ε β} {f : α → Except ε α'} {g : β → Except ε β'} (h : Agree R r s)
    (hf : ∀ a b, R a b → Agree S (f a) (g b)) : Agree S (r >>= f) (s >>= g) := by
  cases h with
  | error e => exact .error e
  | ok h => exact hf _ _ h

/-- The same first step needs no relation. -/
theorem bind_same {r : Except ε α} {f : α → Except ε α'} {g : α → Except ε β'}
    (hf : ∀ a, r = .ok a → Agree S (f a) (g a)) : Agree S (r >>= f) (r >>= g) := by
  cases r with
  | error e => exact .error e
  | ok a => exact hf a rfl

/-- With a success agrees nothing but a success. -/
theorem eq_ok {r : Except ε α} {b : β} (h : Agree R r (.ok b)) : ∃ a, r = .ok a ∧ R a b := by
  cases h with
  | ok h => exact ⟨_, rfl, h⟩

theorem exists_ok {a : α} {s : Except ε β} (h : Agree R (.ok a) s) : ∃ b, s = .ok b ∧ R a b := by
  cases h with
  | ok h => exact ⟨_, rfl, h⟩

/-- With a failure agrees nothing but the same failure. -/
theorem eq_error {e : ε} {s : Except ε β} (h : Agree R (.error e) s) : s = .error e := by
  cases h with
  | error => rfl

theorem refl {R : α → α → Prop} (hR : ∀ a, R a a) (r : Except ε α) : Agree R r r := by
  cases r with
  | error e => exact .error e
  | ok a => exact .ok (hR a)

end Agree

/-- Two computations agree, unless the second fails with a fault of its own. -/
def AgreeUnless (own : ε → Prop) (R : α → β → Prop) (r : Except ε α) (s : Except ε β) : Prop :=
  Agree R r s ∨ ∃ e, s = .error e ∧ own e

namespace AgreeUnless
variable {own : ε → Prop} {α' β' γ : Type} {R : α → β → Prop} {S : α' → β' → Prop}

theorem ok {a : α} {b : β} (h : R a b) : AgreeUnless own R (.ok a) (.ok b) := .inl (.ok h)

theorem imp {own' : ε → Prop} {R' : α → β → Prop} {r : Except ε α} {s : Except ε β} (h : AgreeUnless own R r s)
    (hown : ∀ e, own e → own' e) (hR : ∀ a b, R a b → R' a b) : AgreeUnless own' R' r s := by
  rcases h with h | ⟨e, hs, he⟩
  · cases h with
    | error e => exact .inl (.error e)
    | ok h => exact .ok (hR _ _ h)
  · exact .inr ⟨e, hs, hown e he⟩

/-- Without faults of its own, the second comes to something where the first does. -/
theorem exists_ok {a : α} {s : Except ε β} (h : AgreeUnless own R (.ok a) s) (hs : ∀ e, s = .error e → ¬own e) :
    ∃ b, s = .ok b ∧ R a b := by
  rcases h with h | ⟨e, he, hown⟩
  · cases h with
    | ok h => exact ⟨_, rfl, h⟩
  · exact (hs e he hown).elim

theorem bind {r : Except ε α} {s : Except ε β} {f : α → Except ε α'} {g : β → Except ε β'} (h : AgreeUnless own R r s)
    (hf : ∀ a b, R a b → AgreeUnless own S (f a) (g b)) : AgreeUnless own S (r >>= f) (s >>= g) := by
  rcases h with h | ⟨e, rfl, he⟩
  · cases h with
    | error e => exact .inl (.error e)
    | ok h => exact hf _ _ h
  · exact .inr ⟨e, rfl, he⟩

/-- The same first step needs no relation. -/
theorem bind_same {r : Except ε α} {f : α → Except ε α'} {g : α → Except ε β'}
    (hf : ∀ a, r = .ok a → AgreeUnless own S (f a) (g a)) : AgreeUnless own S (r >>= f) (r >>= g) := by
  cases r with
  | error e => exact .inl (.error e)
  | ok a => exact hf a rfl

/-- A first step that only the second computation takes. -/
theorem bind_own {r : Except ε α} {s : Except ε γ} {g : γ → Except ε β} (hs : ∀ e, s = .error e → own e)
    (hg : ∀ c, s = .ok c → AgreeUnless own R r (g c)) : AgreeUnless own R r (s >>= g) := by
  cases s with
  | error e => exact .inr ⟨e, rfl, hs e rfl⟩
  | ok c => exact hg c rfl

/-- A last step that only the second computation takes, and that cannot fail. -/
theorem bind_last {r : Except ε α} {g : α → β} (h : ∀ a, r = .ok a → R a (g a)) :
    AgreeUnless own R r (r >>= fun a => .ok (g a)) := by
  cases r with
  | error e => exact .inl (.error e)
  | ok a => exact ok (h a rfl)

theorem mapM {f : γ → Except ε α} {g : γ → Except ε β} {cs : List γ} (h : ∀ c ∈ cs, AgreeUnless own R (f c) (g c)) :
    AgreeUnless own (List.Forall₂ R) (cs.mapM f) (cs.mapM g) := by
  induction cs with
  | nil => exact ok .nil
  | cons c cs ih =>
    rw [List.mapM_cons, List.mapM_cons]
    refine bind (h c List.mem_cons_self) fun a b hab => ?_
    exact bind (ih fun d hd => h d (List.mem_cons_of_mem c hd)) fun as bs hall => ok (.cons hab hall)

end AgreeUnless

/-- Whether all faults of a computation are of a kind. -/
def FailsOnly (P : ε → Prop) (r : Except ε α) : Prop := ∀ e, r = .error e → P e

namespace FailsOnly
variable {P : ε → Prop}

theorem ok (a : α) : FailsOnly P (.ok a) := by
  rintro e ⟨⟩

theorem bind {r : Except ε α} {f : α → Except ε β} (h : FailsOnly P r) (hf : ∀ a, r = .ok a → FailsOnly P (f a)) :
    FailsOnly P (r >>= f) := by
  cases r with
  | error e =>
    rintro _ ⟨⟩
    exact h e rfl
  | ok a => exact hf a rfl

theorem mapError {δ : Type} {Q : δ → Prop} {r : Except ε α} {f : ε → δ} (h : FailsOnly (fun e => Q (f e)) r) :
    FailsOnly Q (r.mapError f) := by
  intro d hd
  obtain ⟨e, he, rfl⟩ := mapError_eq_error.mp hd
  exact h e he

theorem mapM {f : α → Except ε β} {as : List α} (h : ∀ a ∈ as, FailsOnly P (f a)) : FailsOnly P (as.mapM f) := by
  induction as with
  | nil => exact ok []
  | cons a as ih =>
    rw [List.mapM_cons]
    refine bind (h a List.mem_cons_self) fun b _ => ?_
    exact bind (ih fun c hc => h c (List.mem_cons_of_mem a hc)) fun bs _ => ok (b :: bs)

theorem findSomeM? {f : α → Except ε (Option β)} {as : List α} (h : ∀ a ∈ as, FailsOnly P (f a)) :
    FailsOnly P (as.findSomeM? f) := by
  induction as with
  | nil => exact ok none
  | cons a as ih =>
    rw [List.findSomeM?]
    refine bind (h a List.mem_cons_self) fun found _ => ?_
    cases found with
    | none => exact ih fun c hc => h c (List.mem_cons_of_mem a hc)
    | some b => exact ok (some b)

end FailsOnly
end Harvest
