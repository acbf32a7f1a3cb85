import Harvest.Number.Numeral
import Mathlib.Data.List.TakeWhile
import Mathlib.Tactic.GCongr
import Mathlib.Tactic.Ring

/-
  How great the numbers are that are read from text.

  A run of digits that is read is not longer than `maxDigits`, which bounds its value (`natural?_lt`). The mantissa of a
  rounded quotient is at most `2^54`, because the exponent is chosen by the lengths of both numbers
  (`quotient_le`); so the whole part of a product is far below that bound (`truncate?_mul_lt`).
-/
namespace Harvest

/-! ## Runs of digits -/

namespace Numeral
open Text

theorem decimal?_lt {c : Char} {d : Nat} (h : decimal? c = some d) : d < 10 := by
  obtain ⟨z, hz, rfl⟩ := Option.map_eq_some_iff.mp h
  have hrange := Array.find?_some hz
  simp only [Bool.and_eq_true, decide_eq_true_eq] at hrange
  omega

theorem foldl_pushDigit_none (s : List Char) : s.foldl pushDigit none = none := by
  induction s with
  | nil => rfl
  | cons c s ih => exact ih

/-- Digits put behind a number that is below a bound stay below the bound with as many places more. -/
theorem foldl_pushDigit {s : List Char} {a b n : Nat} (ha : a < b) (h : s.foldl pushDigit (some a) = some n) :
    (∀ c ∈ s, isDecimal c = true) ∧ n < b * 10 ^ s.length := by
  induction s generalizing a b with
  | nil =>
    cases h
    simpa using ha
  | cons c s ih =>
    rw [List.foldl_cons] at h
    cases hd : decimal? c with
    | none =>
      simp only [pushDigit, hd, foldl_pushDigit_none] at h
      cases h
    | some d =>
      simp only [pushDigit, hd] at h
      have hstep : 10 * a + d < 10 * b := by
        have := decimal?_lt hd
        omega
      obtain ⟨hdecimal, hn⟩ := ih hstep h
      refine ⟨List.forall_mem_cons.mpr ⟨by rw [isDecimal, hd]; rfl, hdecimal⟩, ?_⟩
      rw [List.length_cons, pow_succ]
      calc n < 10 * b * 10 ^ s.length := hn
        _ = b * (10 ^ s.length * 10) := by ring

theorem natOfDigits?_lt {s : List Char} {n : Nat} (h : natOfDigits? s = some n) :
    (∀ c ∈ s, isDecimal c = true) ∧ n < 10 ^ s.length := by
  unfold natOfDigits? at h
  split at h
  · cases h
  · simpa using foldl_pushDigit Nat.zero_lt_one h

/-- A run of digits that is read as a number is not too long, and so the number is not too great. -/
theorem natural?_lt {s : List Char} {n : Nat} (h : natural? s = .ok n) : n < 10 ^ maxDigits := by
  unfold natural? at h
  dsimp only at h
  split at h
  · cases h
  · next hrun =>
    split at h
    · next m hm =>
      cases h
      obtain ⟨hdecimal, hn⟩ := natOfDigits?_lt hm
      have hwhole : s.takeWhile isDecimal = s := List.takeWhile_eq_self_iff.mpr hdecimal
      rw [hwhole, Nat.not_lt] at hrun
      exact hn.trans_le (Nat.pow_le_pow_right (by decide) hrun)
    · cases h

end Numeral

/-! ## Doubles -/

namespace Double

/-- With an exponent that is not below the difference of the lengths, a quotient is below `2^54`. -/
theorem scaled_lt (num den : Nat) {e : Int} (he : (num.log2 : Int) - den.log2 - 53 ≤ e) :
    (scaled num den e).1 / (scaled num den e).2 < 2 ^ 54 := by
  by_cases hden : den = 0
  · subst hden
    unfold scaled
    split <;> simp
  have hnum : num < 2 ^ (num.log2 + 1) := Nat.lt_log2_self
  have hlog : 2 ^ den.log2 ≤ den := Nat.log2_self_le hden
  have hpos : 0 < den := Nat.pos_of_ne_zero hden
  simp only [scaled, Nat.pow_eq]
  split
  · next hsign =>
    have hlen : num.log2 + 1 ≤ 54 + den.log2 + e.toNat := by omega
    refine Nat.div_lt_of_lt_mul ?_
    calc num < 2 ^ (num.log2 + 1) := hnum
      _ ≤ 2 ^ (54 + den.log2 + e.toNat) := Nat.pow_le_pow_right (by decide) hlen
      _ = 2 ^ den.log2 * 2 ^ e.toNat * 2 ^ 54 := by ring
      _ ≤ den * 2 ^ e.toNat * 2 ^ 54 := by gcongr
  · next hsign =>
    have hlen : num.log2 + 1 + (-e).toNat ≤ 54 + den.log2 := by omega
    refine Nat.div_lt_of_lt_mul ?_
    calc num * 2 ^ (-e).toNat < 2 ^ (num.log2 + 1) * 2 ^ (-e).toNat := Nat.mul_lt_mul_of_pos_right hnum (Nat.two_pow_pos _)
      _ = 2 ^ (num.log2 + 1 + (-e).toNat) := (pow_add ..).symm
      _ ≤ 2 ^ (54 + den.log2) := Nat.pow_le_pow_right (by decide) hlen
      _ = 2 ^ den.log2 * 2 ^ 54 := by ring
      _ ≤ den * 2 ^ 54 := by gcongr

theorem roundHalfEven_le (num den : Nat) : roundHalfEven num den ≤ num / den + 1 := by
  unfold roundHalfEven
  dsimp only
  split
  · omega
  · split <;> omega

theorem le_exponentOf (num den : Nat) : (num.log2 : Int) - den.log2 - 53 ≤ exponentOf num den := by
  unfold exponentOf
  dsimp only
  split <;> omega

/-- A finite double that is a rounded quotient has a bounded mantissa and exponent. -/
theorem ofRatio_finite {negative s : Bool} {num den m : Nat} {e : Int} (h : ofRatio negative num den = .finite s m e) :
    m ≤ 2 ^ 54 ∧ e ≤ maxExponent := by
  unfold ofRatio at h
  split at h
  · cases h
    exact ⟨by decide, by decide⟩
  · dsimp only at h
    have hround := roundHalfEven_le (scaled num den (exponentOf num den)).1 (scaled num den (exponentOf num den)).2
    have hlt := scaled_lt num den (le_exponentOf num den)
    split at h
    · split at h
      · cases h
      · cases h
        dsimp only at *
        omega
    · split at h
      · cases h
      · cases h
        dsimp only at *
        omega

theorem mul_finite {x y : Double} {s : Bool} {m : Nat} {e : Int} (h : x.mul y = .finite s m e) :
    m ≤ 2 ^ 54 ∧ e ≤ maxExponent := by
  unfold mul at h
  split at h
  · cases h
  · cases h
  · split at h
    · exact ofRatio_finite h
    · exact ofRatio_finite h
  · cases h
  · split at h <;> cases h
  · split at h <;> cases h

theorem magnitude_le {m bound : Nat} {e : Int} (hm : m ≤ bound) :
    (magnitude m e).1 / (magnitude m e).2 ≤ bound * 2 ^ e.toNat := by
  simp only [magnitude, Nat.pow_eq]
  split
  · rw [Nat.div_one]
    exact Nat.mul_le_mul_right _ hm
  · calc m / 2 ^ (-e).toNat ≤ m := Nat.div_le_self _ _
      _ ≤ bound * 1 := by rwa [Nat.mul_one]
      _ ≤ bound * 2 ^ e.toNat := Nat.mul_le_mul_left _ (Nat.two_pow_pos _)

theorem natAbs_truncate {s : Bool} {m : Nat} {e i : Int} (h : truncate? (.finite s m e) = some i) :
    i.natAbs = (magnitude m e).1 / (magnitude m e).2 := by
  simp only [truncate?, Option.some.injEq] at h
  rw [← h]
  cases s with
  | false => exact Int.natAbs_natCast _
  | true => exact (Int.natAbs_neg _).trans (Int.natAbs_natCast _)

/-- The whole part of a product is not too great to be written. -/
theorem truncate?_mul_lt {x y : Double} {i : Int} (h : (x.mul y).truncate? = some i) :
    i.natAbs < 10 ^ Numeral.maxDigits := by
  cases hxy : x.mul y with
  | infinite s =>
    rw [hxy] at h
    cases h
  | nan =>
    rw [hxy] at h
    cases h
  | finite s m e =>
    obtain ⟨hm, he⟩ := mul_finite hxy
    rw [hxy] at h
    have hexp : e.toNat ≤ maxExponent.toNat := Int.toNat_le_toNat he
    have hbound : 2 ^ 54 * 2 ^ maxExponent.toNat < 10 ^ Numeral.maxDigits := by decide +kernel
    calc i.natAbs = (magnitude m e).1 / (magnitude m e).2 := natAbs_truncate h
      _ ≤ 2 ^ 54 * 2 ^ e.toNat := magnitude_le hm
      _ ≤ 2 ^ 54 * 2 ^ maxExponent.toNat := Nat.mul_le_mul_left _ (Nat.pow_le_pow_right (by decide) hexp)
      _ < 10 ^ Numeral.maxDigits := hbound

end Double
end Harvest
