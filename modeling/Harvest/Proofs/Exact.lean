import Harvest.Number.Double
import Mathlib.Algebra.Order.Field.Power
import Mathlib.Algebra.Order.Field.Rat
import Mathlib.Data.Nat.Cast.Order.Field
import Mathlib.Tactic.Ring

/-
  Whole numbers in double precision.

  A whole number that is a mantissa of 53 bits times a power of two is a double (`Representable`), if it is in range,
  and rounding leaves it as it is: the exponent is chosen by its length (`exponentOf_eq`), and under this exponent
  nothing of it is cut off (`scaled_exact`). So reading such a number is exact (`exact_ofScientific`), and so are
  products that are such numbers again (`Exact.mul`) and the whole part (`Exact.truncate?`).
-/
namespace Harvest.Double

/-- Whether a double is a whole number, exactly. -/
def Exact (x : Double) (v : Nat) : Prop := ∃ m e, x = .finite false m e ∧ (m : ℚ) * 2 ^ e = v

/-- Whether a whole number is a double: a mantissa of 53 bits times a power of two, which is in range. -/
def Representable (v : Nat) : Prop := ∃ m i : Nat, m < 2 ^ 53 ∧ (i : Int) ≤ maxExponent ∧ v = m * 2 ^ i

variable {v w j : Nat} {x y : Double}

/-! ## The exponent -/

theorem log2_mul_pow (hv : v ≠ 0) (j : Nat) : (v * 2 ^ j).log2 = v.log2 + j := by
  refine (Nat.log2_eq_iff (Nat.mul_ne_zero hv (Nat.two_pow_pos j).ne')).mpr ⟨?_, ?_⟩
  · rw [pow_add]
    exact Nat.mul_le_mul_right _ (Nat.log2_self_le hv)
  · calc v * 2 ^ j < 2 ^ (v.log2 + 1) * 2 ^ j := Nat.mul_lt_mul_of_pos_right Nat.lt_log2_self (Nat.two_pow_pos j)
      _ = 2 ^ (v.log2 + j + 1) := by rw [← pow_add]; congr 1; omega

/-- One exponent less, and the mantissa would have more than 53 bits. -/
theorem le_scaled (hv : v ≠ 0) (j : Nat) :
    2 ^ 53 ≤ (scaled (v * 2 ^ j) (2 ^ j) (v.log2 - 53)).1 / (scaled (v * 2 ^ j) (2 ^ j) (v.log2 - 53)).2 := by
  have hlow : 2 ^ v.log2 ≤ v := Nat.log2_self_le hv
  have hpos : 0 < 2 ^ j := Nat.two_pow_pos j
  simp only [scaled, Nat.pow_eq]
  split
  · next hsign =>
    have hlen : 53 + ((v.log2 : Int) - 53).toNat = v.log2 := by omega
    rw [Nat.le_div_iff_mul_le (Nat.mul_pos hpos (Nat.two_pow_pos _))]
    calc 2 ^ 53 * (2 ^ j * 2 ^ ((v.log2 : Int) - 53).toNat)
        = 2 ^ (53 + ((v.log2 : Int) - 53).toNat) * 2 ^ j := by ring
      _ = 2 ^ v.log2 * 2 ^ j := by rw [hlen]
      _ ≤ v * 2 ^ j := Nat.mul_le_mul_right _ hlow
  · next hsign =>
    have hlen : v.log2 + (-((v.log2 : Int) - 53)).toNat = 53 := by omega
    rw [Nat.le_div_iff_mul_le hpos]
    calc 2 ^ 53 * 2 ^ j = 2 ^ (v.log2 + (-((v.log2 : Int) - 53)).toNat) * 2 ^ j := by rw [hlen]
      _ = 2 ^ v.log2 * 2 ^ j * 2 ^ (-((v.log2 : Int) - 53)).toNat := by ring
      _ ≤ v * 2 ^ j * 2 ^ (-((v.log2 : Int) - 53)).toNat := Nat.mul_le_mul_right _ (Nat.mul_le_mul_right _ hlow)

theorem exponentOf_eq (hv : v ≠ 0) (j : Nat) : exponentOf (v * 2 ^ j) (2 ^ j) = v.log2 - 52 := by
  have hguess : ((v * 2 ^ j).log2 : Int) - (2 ^ j).log2 - 53 = v.log2 - 53 := by
    rw [log2_mul_pow hv, Nat.log2_two_pow]
    omega
  have hnot := Nat.not_lt.mpr (le_scaled hv j)
  simp only [exponentOf, hguess, Nat.pow_eq, if_neg hnot, minExponent]
  omega

/-! ## Rounding -/

theorem roundHalfEven_mul (q : Nat) {d : Nat} (hd : 0 < d) : roundHalfEven (q * d) d = q := by
  simp [roundHalfEven, Nat.mul_div_cancel q hd, hd]

/-- Under an exponent that divides a whole number, nothing of it is cut off. -/
theorem scaled_exact {e : Int} (he : 2 ^ e.toNat ∣ v) (j : Nat) :
    ∃ q d : Nat, 0 < d ∧ scaled (v * 2 ^ j) (2 ^ j) e = (q * d, d) ∧ (q : ℚ) * 2 ^ e = v := by
  by_cases hsign : 0 ≤ e
  · obtain ⟨q, rfl⟩ := he
    refine ⟨q, 2 ^ j * 2 ^ e.toNat, Nat.mul_pos (Nat.two_pow_pos j) (Nat.two_pow_pos _), ?_, ?_⟩
    · simp only [scaled, Nat.pow_eq, if_pos hsign, Prod.mk.injEq, and_true]
      ring
    · obtain ⟨n, rfl⟩ := Int.eq_ofNat_of_zero_le hsign
      simp only [Int.toNat_natCast, zpow_natCast]
      push_cast
      ring
  · obtain ⟨n, hn⟩ : ∃ n : Nat, e = -(n : Int) := ⟨(-e).toNat, by omega⟩
    subst hn
    refine ⟨v * 2 ^ n, 2 ^ j, Nat.two_pow_pos j, ?_, ?_⟩
    · simp only [scaled, Nat.pow_eq, if_neg hsign, neg_neg, Int.toNat_natCast, Prod.mk.injEq, and_true]
      ring
    · push_cast
      rw [zpow_neg, zpow_natCast, mul_assoc, mul_inv_cancel₀ (pow_ne_zero n two_ne_zero), mul_one]

/-- The exponent that is chosen divides the number, and is in range. -/
theorem Representable.exponent (h : Representable v) (hv : v ≠ 0) :
    2 ^ ((v.log2 : Int) - 52).toNat ∣ v ∧ (v.log2 : Int) - 52 ≤ maxExponent := by
  obtain ⟨m, i, hm, hi, rfl⟩ := h
  have hm0 : m ≠ 0 := by
    rintro rfl
    simp at hv
  have hlog : m.log2 < 53 := (Nat.log2_lt hm0).mpr hm
  rw [log2_mul_pow hm0]
  exact ⟨Dvd.dvd.mul_left (Nat.pow_dvd_pow 2 (by omega)) m, by omega⟩

/-- The rounded quotient is exact, where it is a whole number that is a double. -/
theorem exact_ofRatio (h : Representable v) (j : Nat) : Exact (ofRatio false (v * 2 ^ j) (2 ^ j)) v := by
  by_cases hv : v = 0
  · subst hv
    refine ⟨0, minExponent, ?_, by simp⟩
    simp [ofRatio, zero]
  obtain ⟨hdvd, hrange⟩ := h.exponent hv
  obtain ⟨q, d, hd, hscaled, hq⟩ := scaled_exact hdvd j
  have hnum : v * 2 ^ j ≠ 0 := Nat.mul_ne_zero hv (Nat.two_pow_pos j).ne'
  -- `v` is below the next power of two, so the mantissa has 53 bits
  have hlt : q < 2 ^ 53 := by
    have hvlt : (v : ℚ) < 2 ^ ((v.log2 : Int) + 1) := by exact_mod_cast (Nat.lt_log2_self (n := v))
    have hpos : (0 : ℚ) < 2 ^ ((v.log2 : Int) - 52) := by positivity
    have hpow : (2 : ℚ) ^ ((v.log2 : Int) + 1) = 2 ^ (53 : Nat) * 2 ^ ((v.log2 : Int) - 52) := by
      rw [← zpow_natCast, ← zpow_add₀ (by norm_num)]
      congr 1
      push_cast
      ring
    rw [← hq, hpow] at hvlt
    exact_mod_cast lt_of_mul_lt_mul_right hvlt hpos.le
  refine ⟨q, (v.log2 : Int) - 52, ?_, hq⟩
  simp only [ofRatio, if_neg hnum, exponentOf_eq hv, hscaled, roundHalfEven_mul q hd, Nat.pow_eq, if_pos hlt,
    if_neg (Int.not_lt.mpr hrange)]

/-! ## Arithmetic -/

/-- A product is exact, where it is a double. -/
theorem Exact.mul (hx : Exact x v) (hy : Exact y w) (h : Representable (v * w)) : Exact (x.mul y) (v * w) := by
  obtain ⟨m, e, rfl, hm⟩ := hx
  obtain ⟨n, f, rfl, hn⟩ := hy
  have hvalue : (m * n : ℚ) * 2 ^ (e + f) = v * w := by
    rw [zpow_add₀ (by norm_num), ← hm, ← hn]
    ring
  simp only [Double.mul, bne_self_eq_false, Nat.pow_eq]
  split
  · next hsign =>
    obtain ⟨k, hk⟩ := Int.eq_ofNat_of_zero_le hsign
    rw [hk] at hvalue ⊢
    have hwhole : m * n * 2 ^ (k : Int).toNat = v * w * 2 ^ 0 := by
      rw [Int.toNat_natCast, pow_zero, mul_one]
      exact_mod_cast hvalue
    rw [hwhole]
    exact exact_ofRatio h 0
  · next hsign =>
    obtain ⟨k, hk⟩ : ∃ k : Nat, e + f = -(k : Int) := ⟨(-(e + f)).toNat, by omega⟩
    rw [hk] at hvalue ⊢
    have hwhole : m * n = v * w * 2 ^ k := by
      rw [zpow_neg, zpow_natCast, mul_inv_eq_iff_eq_mul₀ (pow_ne_zero k two_ne_zero)] at hvalue
      exact_mod_cast hvalue
    rw [hwhole, neg_neg, Int.toNat_natCast]
    exact exact_ofRatio h k

/-- The whole part of a whole number is the number. -/
theorem Exact.truncate? (hx : Exact x v) : x.truncate? = some (v : Int) := by
  obtain ⟨m, e, rfl, hm⟩ := hx
  simp only [Double.truncate?, magnitude, Nat.pow_eq]
  by_cases hsign : 0 ≤ e
  · obtain ⟨k, rfl⟩ := Int.eq_ofNat_of_zero_le hsign
    have hwhole : m * 2 ^ k = v := by
      rw [zpow_natCast] at hm
      exact_mod_cast hm
    simp [hwhole]
  · obtain ⟨k, rfl⟩ : ∃ k : Nat, e = -(k : Int) := ⟨(-e).toNat, by omega⟩
    have hwhole : m = v * 2 ^ k := by
      rw [zpow_neg, zpow_natCast, mul_inv_eq_iff_eq_mul₀ (pow_ne_zero k two_ne_zero)] at hm
      exact_mod_cast hm
    simp only [if_neg hsign, neg_neg, Int.toNat_natCast, hwhole, Nat.mul_div_cancel v (Nat.two_pow_pos k)]
    rfl

theorem exact_ofInt (h : Representable v) : Exact (ofInt v) v := by
  have hratio := exact_ofRatio h 0
  have hsign : ¬(v : Int) < 0 := by omega
  simpa [ofInt, hsign] using hratio

/-- A whole number without a power of ten is read exactly. -/
theorem exact_ofScientific (h : Representable v) : Exact (ofScientific false v 0) v := by
  by_cases hv : v = 0
  · subst hv
    exact ⟨0, minExponent, rfl, by simp⟩
  · have hratio := exact_ofRatio h 0
    have hlow : ¬(v.log2 : Int) < -1200 := by omega
    simpa [ofScientific, hv, hlow] using hratio

end Harvest.Double
