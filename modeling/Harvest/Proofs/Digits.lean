import Harvest.Fault
import Harvest.Filter.Standard
import Harvest.Proofs.Magnitude
import Harvest.Proofs.Scalar
import Mathlib.Data.List.Induction
import Mathlib.Data.Nat.Digits.Defs

/-
  The number that the digits of a text write down.

  Digits of two kinds stay of a text: decimal digits, which have a place value, and others, which have none. A run of
  decimal digits that is not too long is read as the number it writes down, by induction from the last digit
  (`natOfDigits?_eq`); any other run is refused (`natural?_eq_error`).
    1. `digits_text` — when the filter finds no number, when it fails, and which number it gives; and that characters
       that are no digits do not count, wherever they stand.
-/
namespace Harvest
open Text

/-! ## Runs of digits -/

namespace Numeral
variable {ds : List Char}

/-- The number that decimal digits write down, the last one for the units. -/
def value (ds : List Char) : Nat := Nat.ofDigits 10 (ds.reverse.map fun c => (decimal? c).getD 0)

theorem value_concat {c : Char} {d : Nat} (hd : decimal? c = some d) (ds : List Char) :
    value (ds ++ [c]) = 10 * value ds + d := by
  simp only [value, List.reverse_concat, List.map_cons, hd, Option.getD_some, Nat.ofDigits_cons]
  exact Nat.add_comm _ _

theorem natOfDigits?_eq (hne : ds ≠ []) (hds : ∀ c ∈ ds, isDecimal c = true) : natOfDigits? ds = some (value ds) := by
  have hfold : ∀ ds : List Char, (∀ c ∈ ds, isDecimal c = true) → ds.foldl pushDigit (some 0) = some (value ds) := by
    intro ds hds
    induction ds using List.reverseRecOn with
    | nil => rfl
    | append_singleton ds c ih =>
      obtain ⟨d, hd⟩ := Option.isSome_iff_exists.mp (hds c (by simp))
      rw [List.foldl_concat, ih fun b hb => hds b (by simp [hb]), value_concat hd]
      simp only [pushDigit, hd]
  rw [natOfDigits?, if_neg (by simpa using hne), hfold ds hds]

theorem value_toDigits (n : Nat) : value (Nat.toDigits 10 n) = n := by
  have hread := natOfDigits?_eq Nat.toDigits_ne_nil (Json.isDecimal_of_mem_toDigits (n := n))
  rw [Json.natOfDigits?_toDigits] at hread
  exact (Option.some.inj hread).symm

theorem natural?_eq_ok (hne : ds ≠ []) (hds : ∀ c ∈ ds, isDecimal c = true) (hlength : ds.length ≤ maxDigits) :
    natural? ds = .ok (value ds) := by
  have hrun : (ds.takeWhile isDecimal).length ≤ maxDigits := by rwa [List.takeWhile_eq_self_iff.mpr hds]
  simp only [natural?, if_neg (Nat.not_lt.mpr hrun), natOfDigits?_eq hne hds]

/-- Whether digits write down no number that is read: one of them has no place value, or they are too many. -/
def Unreadable (ds : List Char) : Prop := (∃ c ∈ ds, isDecimal c = false) ∨ maxDigits < ds.length

theorem not_unreadable : ¬Unreadable ds ↔ (∀ c ∈ ds, isDecimal c = true) ∧ ds.length ≤ maxDigits := by
  simp [Unreadable]

theorem Unreadable.ne_nil (h : Unreadable ds) : ds ≠ [] := by
  rintro rfl
  simp [Unreadable] at h

theorem natural?_eq_error (h : Unreadable ds) : ∃ e, natural? ds = .error e := by
  unfold natural?
  dsimp only
  split
  · exact ⟨_, rfl⟩
  · next hrun =>
    split
    · next n hn =>
      -- what is read has decimal digits only, and so is one run
      have hds := (natOfDigits?_lt hn).1
      rw [List.takeWhile_eq_self_iff.mpr hds] at hrun
      rcases h with ⟨c, hc, hother⟩ | hlong
      · rw [hds c hc] at hother
        cases hother
      · exact absurd hlong hrun
    · exact ⟨_, rfl⟩

end Numeral

/-! ## Texts -/

/-- A text `t` is a text `s` with characters put in, anywhere, that are no digits. -/
inductive Padded : List Char → List Char → Prop where
  | nil : Padded [] []
  | keep (c : Char) {s t : List Char} (h : Padded s t) : Padded (c :: s) (c :: t)
  | pad {c : Char} (hc : isDigit c = false) {s t : List Char} (h : Padded s t) : Padded s (c :: t)

theorem Padded.filter_eq {s t : List Char} (h : Padded s t) : t.filter isDigit = s.filter isDigit := by
  induction h with
  | nil => rfl
  | keep c _ ih => rw [List.filter_cons, List.filter_cons, ih]
  | pad hc _ ih => rw [List.filter_cons_of_neg (by simp [hc]), ih]

namespace Filter
variable {s t : List Char}

theorem run_digits (s : String) : digits.run (.text s) [] = numberIn s.toList := rfl

theorem numberIn_of_nil (h : s.filter isDigit = []) : numberIn s = .ok .null := by
  simp only [numberIn, h]
  rfl

theorem numberIn_eq (h : s.filter isDigit ≠ []) : numberIn s = numberOf (s.filter isDigit) := by
  rw [numberIn]
  exact if_neg (by simpa using h)

/-- Only the digits count. -/
theorem numberIn_congr (h : t.filter isDigit = s.filter isDigit) : numberIn t = numberIn s := by
  unfold numberIn
  rw [h]

theorem numberIn_eq_ok (hne : s.filter isDigit ≠ []) (h : ¬Numeral.Unreadable (s.filter isDigit)) :
    numberIn s = .ok (.int (Numeral.value (s.filter isDigit))) := by
  obtain ⟨hds, hlength⟩ := Numeral.not_unreadable.mp h
  rw [numberIn_eq hne, numberOf, Numeral.natural?_eq_ok hne hds hlength]

theorem numberIn_eq_error (h : Numeral.Unreadable (s.filter isDigit)) :
    ∃ e, numberIn s = .error (.number e (String.ofList (s.filter isDigit))) := by
  obtain ⟨e, he⟩ := Numeral.natural?_eq_error h
  exact ⟨e, by rw [numberIn_eq h.ne_nil, numberOf, he]⟩

theorem numberIn_eq_null_iff : numberIn s = .ok .null ↔ s.filter isDigit = [] := by
  refine ⟨fun h => ?_, numberIn_of_nil⟩
  by_contra hne
  by_cases hds : Numeral.Unreadable (s.filter isDigit)
  · obtain ⟨e, he⟩ := numberIn_eq_error hds
    rw [he] at h
    cases h
  · rw [numberIn_eq_ok hne hds] at h
    cases h

/-- Every failure is a number that cannot be read. -/
theorem numberIn_fails_iff :
    (∃ f, numberIn s = .error f ∧ Fault.filterKind f = "ValueError") ↔ Numeral.Unreadable (s.filter isDigit) := by
  constructor
  · rintro ⟨f, hf, -⟩
    by_contra hds
    by_cases hne : s.filter isDigit = []
    · rw [numberIn_of_nil hne] at hf
      cases hf
    · rw [numberIn_eq_ok hne hds] at hf
      cases hf
  · intro hds
    obtain ⟨e, he⟩ := numberIn_eq_error hds
    exact ⟨_, he, rfl⟩

/-- The digits of a number are the number, whatever stands between them. -/
theorem numberIn_padded {n : Nat} (hn : n < 10 ^ Numeral.maxDigits) (ht : Padded (Nat.toDigits 10 n) t) :
    numberIn t = .ok (.int n) := by
  have hdecimal := Json.isDecimal_of_mem_toDigits (n := n)
  have hdigits : t.filter isDigit = Nat.toDigits 10 n := by
    rw [ht.filter_eq, List.filter_eq_self]
    intro c hc
    rw [isDigit, hdecimal c hc, Bool.true_or]
  have hreadable : ¬Numeral.Unreadable (Nat.toDigits 10 n) :=
    Numeral.not_unreadable.mpr ⟨hdecimal, (Nat.length_toDigits_le_iff (by decide) (by decide)).mpr hn⟩
  rw [← hdigits] at hreadable
  rw [numberIn_eq_ok (hdigits ▸ Nat.toDigits_ne_nil) hreadable, hdigits, Numeral.value_toDigits]

/-- The number in a text. Without digits there is none. The filter fails just where a digit has no place value or there
are too many digits, and else it gives the number that the digits write down. Characters that are no digits change
nothing, put in or taken out anywhere; so the digits of a number that is not too great, with such characters between
them, are read as the number. -/
theorem digits_text (s : String) :
    (digits.run (.text s) [] = .ok .null ↔ s.toList.filter isDigit = []) ∧
      ((∃ f, digits.run (.text s) [] = .error f ∧ Fault.filterKind f = "ValueError") ↔
        (∃ c ∈ s.toList.filter isDigit, isDecimal c = false) ∨ Numeral.maxDigits < (s.toList.filter isDigit).length) ∧
      (s.toList.filter isDigit ≠ [] → (∀ c ∈ s.toList.filter isDigit, isDecimal c = true) →
        (s.toList.filter isDigit).length ≤ Numeral.maxDigits →
        digits.run (.text s) [] = .ok (.int (Numeral.value (s.toList.filter isDigit)))) ∧
      (∀ t : String, Padded s.toList t.toList → digits.run (.text t) [] = digits.run (.text s) []) ∧
      ∀ n : Nat, n < 10 ^ Numeral.maxDigits → Padded (toString n).toList s.toList →
        digits.run (.text s) [] = .ok (.int n) := by
  simp only [run_digits]
  refine ⟨numberIn_eq_null_iff, numberIn_fails_iff, ?_, ?_, ?_⟩
  · intro hne hds hlength
    exact numberIn_eq_ok hne (Numeral.not_unreadable.mpr ⟨hds, hlength⟩)
  · intro t ht
    exact numberIn_congr ht.filter_eq
  · intro n hn hs
    rw [Nat.toString_eq_repr, Nat.repr_eq_ofList_toDigits, String.toList_ofList] at hs
    exact numberIn_padded hn hs

theorem digits_text_sample :
    digits.run (.text "1 ٢,3") [] = .ok (.int 123) ∧
      (∃ f, digits.run (.text "5 m²") [] = .error f ∧ Fault.filterKind f = "ValueError") ∧
      Padded (toString 12).toList "v1.2".toList ∧ digits.run (.text "v1.2") [] = .ok (.int 12) := by
  have hds : "1 ٢,3".toList.filter isDigit = ['1', '٢', '3'] := by decide +kernel
  have hvalue : Numeral.value ['1', '٢', '3'] = 123 := by decide +kernel
  have hnumber := (digits_text "1 ٢,3").2.2.1
  rw [hds, hvalue] at hnumber
  have hdecimal : ['1', '٢', '3'].all isDecimal = true := by decide +kernel
  have hsquare : "5 m²".toList.filter isDigit = ['5', '²'] := by decide +kernel
  have hfault := (digits_text "5 m²").2.1
  rw [hsquare] at hfault
  have hpadded : Padded (toString 12).toList "v1.2".toList :=
    .pad (by decide +kernel) (.keep '1' (.pad (by decide +kernel) (.keep '2' .nil)))
  refine ⟨hnumber (by simp) (List.all_eq_true.mp hdecimal) (by decide),
    hfault.mpr (.inl ⟨'²', by simp, by decide +kernel⟩), hpadded, (digits_text "v1.2").2.2.2.2 12 ?_ hpadded⟩
  exact Nat.lt_of_lt_of_le (by decide : 12 < 10 ^ 2) (Nat.pow_le_pow_right (by decide) (by decide))

end Filter
end Harvest
