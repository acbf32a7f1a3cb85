import Harvest.Filter.Size

/-
  What capitals leave alone.

  The tables of upper case know nothing of white space and of digits, and nothing that they make is a digit or a point.
  Both are facts about ranges of code points: each range of the one side is apart from each of the other (`isApart`),
  which is computed once, and carried over to characters by `upperChar_of_settled` and `not_isAmount_of_lacks`.
    1. `upper_of_isBlank`, `upper_of_isDigit` — white space and digits stay.
    2. `not_isAmount_upper` — no amount comes into being.
-/
namespace Harvest.Text
open Casing Size

variable {c d : Char} {s : List Char} {r : Nat × Nat}

/-- Whether two ranges have no code point in common. -/
def isApart (a b : Nat × Nat) : Bool := Nat.blt a.2 b.1 || Nat.blt b.2 a.1

theorem isApart_iff {a b : Nat × Nat} : isApart a b = true ↔ a.2 < b.1 ∨ b.2 < a.1 := by
  simp only [isApart, Bool.or_eq_true, Nat.blt_eq]

/-! ## Characters that stay -/

/-- Whether the tables of upper case have no entry in a range. -/
def isSettled (r : Nat × Nat) : Bool :=
  isApart r (97, 122) && upperExpansions.toList.all (fun e => isApart r (e.1, e.1))
    && upperRuns.toList.all (fun u => isApart r (u.first, u.last))

theorem toUpper_of_not_letter (h : c.toNat < 97 ∨ 122 < c.toNat) : c.toUpper = c := by
  have hno : ¬('a'.val ≤ c.val ∧ c.val ≤ 'z'.val) := by
    rintro ⟨hlow, hhigh⟩
    have hlow' : 97 ≤ c.toNat := hlow
    have hhigh' : c.toNat ≤ 122 := hhigh
    omega
  exact dif_neg hno

/-- What stands in no table has itself for upper case. -/
theorem upperChar_of_settled (h : isSettled r = true) (hlow : r.1 ≤ c.toNat) (hhigh : c.toNat ≤ r.2) :
    upperChar c = [c] := by
  simp only [isSettled, Bool.and_eq_true, List.all_eq_true, Array.mem_toList_iff, isApart_iff] at h
  obtain ⟨⟨hletter, hexpansions⟩, hruns⟩ := h
  have hupper : c.toUpper = c := toUpper_of_not_letter (by omega)
  have hexpansion : upperExpansions.find? (·.1 == c.toNat) = none := by
    rw [Array.find?_eq_none]
    intro e he
    have hout := hexpansions e he
    simp only [beq_iff_eq]
    omega
  have hrun : upperRuns.findSome? (·.mapped? c.toNat) = none := by
    rw [Array.findSome?_eq_none_iff]
    intro u hu
    have hout := hruns u hu
    unfold Run.mapped?
    rw [if_neg]
    simp only [Bool.and_eq_true, decide_eq_true_eq, not_and]
    omega
  rw [upperChar, hupper, hexpansion, mapCase, hrun]
  split <;> rfl

theorem exists_range {rs : Ranges} {n : Nat} (h : rs.has n = true) : ∃ r ∈ rs.toList, r.1 ≤ n ∧ n ≤ r.2 := by
  rw [Ranges.has, Array.any_eq_true'] at h
  obtain ⟨r, hr, h⟩ := h
  rw [Bool.and_eq_true, decide_eq_true_eq, decide_eq_true_eq] at h
  exact ⟨r, Array.mem_toList_iff.mpr hr, h⟩

theorem upperChar_of_has (rs : Ranges) (h : rs.toList.all isSettled = true) (hc : rs.has c.toNat = true) :
    upperChar c = [c] := by
  obtain ⟨r, hr, hlow, hhigh⟩ := exists_range hc
  exact upperChar_of_settled (List.all_eq_true.mp h r hr) hlow hhigh

/-- The ranges of white space. -/
def blankRanges : Ranges := #[
  (9, 13), (28, 32), (0x85, 0x85), (0xa0, 0xa0), (0x1680, 0x1680), (0x2000, 0x200a), (0x2028, 0x2029), (0x202f, 0x202f),
  (0x205f, 0x205f), (0x3000, 0x3000)]

/-- The ranges of decimal digits. -/
def decimalRanges : Ranges := (decimalZeros.toList.map fun z => (z, z + 9)).toArray

theorem has_blankRanges (h : isBlank c = true) : blankRanges.has c.toNat = true := by
  simp only [isBlank, Bool.or_eq_true, Bool.and_eq_true, decide_eq_true_eq, beq_iff_eq] at h
  simp only [Ranges.has, blankRanges, List.any_toArray, List.any_cons, List.any_nil, Bool.or_eq_true, Bool.and_eq_true,
    decide_eq_true_eq]
  omega

theorem has_decimalRanges : decimalRanges.has c.toNat = isDecimal c := by
  rw [Bool.eq_iff_iff]
  simp only [Ranges.has, decimalRanges, List.any_toArray, List.any_map, isDecimal, decimal?, Option.isSome_map,
    Array.find?_isSome, List.any_eq_true, Array.mem_toList_iff, Function.comp_apply, Bool.and_eq_true,
    decide_eq_true_eq]
  constructor <;> rintro ⟨z, hz, hlow, hhigh⟩ <;> exact ⟨z, hz, hlow, by omega⟩

theorem upperChar_of_isBlank (h : isBlank c = true) : upperChar c = [c] :=
  upperChar_of_has blankRanges (by decide +kernel) (has_blankRanges h)

theorem upperChar_of_isDigit (h : isDigit c = true) : upperChar c = [c] := by
  rw [isDigit, Bool.or_eq_true] at h
  rcases h with h | h
  · exact upperChar_of_has decimalRanges (by decide +kernel) (has_decimalRanges.trans h)
  · exact upperChar_of_has otherDigitRanges (by decide +kernel) h

theorem upper_of_forall (h : ∀ c ∈ s, upperChar c = [c]) : upper s = s := by
  induction s with
  | nil => rfl
  | cons c s ih =>
    obtain ⟨hc, hs⟩ := List.forall_mem_cons.mp h
    have hrest : s.flatMap upperChar = s := ih hs
    rw [upper, List.flatMap_cons, hc, hrest, List.singleton_append]

theorem upper_of_isBlank (h : ∀ c ∈ s, isBlank c = true) : upper s = s :=
  upper_of_forall fun c hc => upperChar_of_isBlank (h c hc)

theorem upper_of_isDigit (h : ∀ c ∈ s, isDigit c = true) : upper s = s :=
  upper_of_forall fun c hc => upperChar_of_isDigit (h c hc)

/-! ## Characters that do not arise -/

/-- Whether a range has neither a decimal digit nor the point. -/
def lacksAmounts (r : Nat × Nat) : Bool :=
  isApart r (46, 46) && decimalZeros.toList.all fun z => isApart r (z, z + 9)

theorem not_isAmount_of_lacks (h : lacksAmounts r = true) (hlow : r.1 ≤ c.toNat) (hhigh : c.toNat ≤ r.2) :
    isAmount c = false := by
  simp only [lacksAmounts, Bool.and_eq_true, List.all_eq_true, Array.mem_toList_iff, isApart_iff] at h
  obtain ⟨hpoint, hdigits⟩ := h
  have hne : c ≠ '.' := by
    rintro rfl
    have hnat : ('.' : Char).toNat = 46 := rfl
    omega
  have hfind : decimalZeros.find? (fun z => z ≤ c.toNat && c.toNat < z + 10) = none := by
    rw [Array.find?_eq_none]
    intro z hz
    have hout := hdigits z hz
    simp only [Bool.and_eq_true, decide_eq_true_eq, not_and]
    omega
  rw [isAmount, isDecimal, decimal?, hfind, beq_false_of_ne hne]
  rfl

theorem not_isAmount_of_isBlank (h : isBlank c = true) : isAmount c = false := by
  have hlacks : blankRanges.toList.all lacksAmounts = true := by decide +kernel
  obtain ⟨r, hr, hlow, hhigh⟩ := exists_range (has_blankRanges h)
  exact not_isAmount_of_lacks (List.all_eq_true.mp hlacks r hr) hlow hhigh

/-- The character of a code point; numbers that are no code points stand for the null character. -/
theorem not_isAmount_ofNat (h : lacksAmounts r = true) {n : Nat} (hlow : r.1 ≤ n) (hhigh : n ≤ r.2) :
    isAmount (Char.ofNat n) = false := by
  have hn : (Char.ofNat n).toNat = n ∨ (Char.ofNat n).toNat = 0 := by
    by_cases hvalid : n.isValidChar
    · have hchar : Char.ofNat n = Char.ofNatAux n hvalid := dif_pos hvalid
      rw [hchar]
      exact .inl rfl
    · have hchar : Char.ofNat n = '\x00' := dif_neg hvalid
      rw [hchar]
      exact .inr rfl
  rcases hn with hn | hn
  · exact not_isAmount_of_lacks h (by omega) (by omega)
  · exact not_isAmount_of_lacks (r := (0, 0)) (by decide +kernel) (by omega) (by omega)

/-- What a run of the table maps to. -/
def Casing.Run.image (u : Run) : Nat × Nat := ((u.first + u.offset).toNat, (u.last + u.offset).toNat)

theorem not_isAmount_mapped {u : Run} (hu : lacksAmounts u.image = true) {n : Nat} (h : u.mapped? n = some d) :
    isAmount d = false := by
  unfold Run.mapped? at h
  split at h
  · next hin =>
    cases h
    simp only [Bool.and_eq_true, decide_eq_true_eq] at hin
    exact not_isAmount_ofNat hu (by simp only [Run.image]; omega) (by simp only [Run.image]; omega)
  · cases h

/-- No character of an amount is the upper case of another character. -/
theorem not_isAmount_upperChar (hc : isAmount c = false) : ∀ d ∈ upperChar c, isAmount d = false := by
  intro d hd
  unfold upperChar at hd
  split at hd
  · next hascii =>
    have hall : ∀ n < 0x80, (Char.ofNat n).toUpper = Char.ofNat n ∨
        65 ≤ (Char.ofNat n).toUpper.toNat ∧ (Char.ofNat n).toUpper.toNat ≤ 90 := by decide +kernel
    have hupper := hall c.toNat hascii
    rw [Char.ofNat_toNat] at hupper
    rw [List.mem_singleton.mp hd]
    rcases hupper with hsame | ⟨hlow, hhigh⟩
    · rw [hsame]
      exact hc
    · exact not_isAmount_of_lacks (r := (65, 90)) (by decide +kernel) hlow hhigh
  · split at hd
    · next e cs hfind =>
      have hall : upperExpansions.toList.all (fun e => e.2.all fun n => lacksAmounts (n, n)) = true := by decide +kernel
      obtain ⟨n, hn, rfl⟩ := List.mem_map.mp hd
      have hmem := Array.mem_toList_iff.mpr (Array.mem_of_find?_eq_some hfind)
      have hlacks := List.all_eq_true.mp (List.all_eq_true.mp hall _ hmem) n hn
      exact not_isAmount_ofNat hlacks (Nat.le_refl n) (Nat.le_refl n)
    · have hall : upperRuns.toList.all (fun u => lacksAmounts u.image) = true := by decide +kernel
      rw [List.mem_singleton.mp hd, mapCase]
      cases hfind : upperRuns.findSome? (·.mapped? c.toNat) with
      | none => exact hc
      | some b =>
        obtain ⟨u, hu, hmapped⟩ := Array.exists_of_findSome?_eq_some hfind
        exact not_isAmount_mapped (List.all_eq_true.mp hall u (Array.mem_toList_iff.mpr hu)) hmapped

theorem not_isAmount_upper (h : ∀ c ∈ s, isAmount c = false) : ∀ d ∈ upper s, isAmount d = false := by
  intro d hd
  obtain ⟨c, hc, hd⟩ := List.mem_flatMap.mp hd
  exact not_isAmount_upperChar (h c hc) d hd

end Harvest.Text
