import Harvest.Json.Printer
import Harvest.Json.Reader
import Harvest.Proofs.Fallible
import Harvest.Proofs.Pieces
import Mathlib.Algebra.Group.Nat.Defs

/-
  Strings, words and integers of JSON: what is written is read again.

  A character of a string is written as itself or as an escape, and either way it is read as its own code, which is no half
  of a pair (`string_written`). The digits of an integer are read as the integer, if they are not too many and nothing
  follows that could belong to a number (`number_written`).
-/
namespace Harvest.Json
open Text

/-! ## Strings -/

section
variable {start s : List Char}

theorem toNat_not_half (c : Char) : c.toNat < 0xd800 ∨ 0xdfff < c.toNat := by
  rcases c.valid with h | h
  · exact .inl h
  · exact .inr h.1

theorem isHigh_toNat (c : Char) : isHigh c.toNat = false := by
  have hhalf := toNat_not_half c
  simp only [isHigh, Bool.and_eq_false_iff, decide_eq_false_iff_not]
  omega

theorem isLow_toNat (c : Char) : isLow c.toNat = false := by
  have hhalf := toNat_not_half c
  simp only [isLow, Bool.and_eq_false_iff, decide_eq_false_iff_not]
  omega

/-- The codes of characters make these characters. -/
theorem joinUnits_toNat (s : List Char) : joinUnits none (s.map (·.toNat)) = s := by
  induction s with
  | nil => rfl
  | cons c s ih =>
    have hsingle : single c.toNat = c := by
      rw [single, isHigh_toNat, isLow_toNat]
      exact Char.ofNat_toNat c
    rw [List.map_cons, joinUnits, if_neg (by simp [isHigh_toNat]), hsingle, ih]

/-- A character that stands for itself. -/
theorem codeUnits_plain {c : Char} (hq : c ≠ '"') (hb : c ≠ '\\') (hc : ¬c.toNat < 0x20) (s : List Char) :
    codeUnits start (c :: s) = (codeUnits start s).map fun (ns, r) => (c.toNat :: ns, r) := by
  rw [codeUnits]
  · rw [if_neg (by simpa using hb), if_neg hc]
  all_goals simp_all

/-- An escape of one letter. -/
theorem codeUnits_escape {c d : Char} (h : escape? c = some d) (s : List Char) :
    codeUnits start ('\\' :: c :: s) = (codeUnits start s).map fun (ns, r) => (d.toNat :: ns, r) := by
  have hu : c ≠ 'u' := by
    rintro rfl
    cases h
  rw [codeUnits]
  · rw [h]
  all_goals simp_all

/-- An escape of four digits. -/
theorem codeUnits_unit {a b c d : Char} {n : Nat} (h : codeUnit? a b c d = some n) (hs : s ≠ []) :
    codeUnits start ('\\' :: 'u' :: a :: b :: c :: d :: s)
      = (codeUnits start s).map fun (ns, r) => (n :: ns, r) := by
  obtain ⟨e, s, rfl⟩ := List.exists_cons_of_ne_nil hs
  rw [codeUnits]
  exact h

/-- The digits of a small code read as the code. -/
theorem codeUnit_hex : ∀ n < 0x20, ∃ a b c d, hex 4 n = [a, b, c, d] ∧ codeUnit? a b c d = some n := by
  have hall : ∀ n < 0x20, (hex 4 n).length = 4 ∧
      codeUnit? ((hex 4 n).getD 0 ' ') ((hex 4 n).getD 1 ' ') ((hex 4 n).getD 2 ' ') ((hex 4 n).getD 3 ' ') = some n := by
    decide
  intro n hn
  obtain ⟨hlen, hread⟩ := hall n hn
  obtain ⟨a, b, c, d, h⟩ := List.length_eq_four.mp hlen
  rw [h] at hread
  exact ⟨a, b, c, d, h, hread⟩

/-- A character that is written is read as its code. -/
theorem codeUnits_writeChar (c : Char) (hs : s ≠ []) :
    codeUnits start (writeChar c ++ s) = (codeUnits start s).map fun (ns, r) => (c.toNat :: ns, r) := by
  unfold writeChar
  split
  · exact codeUnits_escape rfl s
  · exact codeUnits_escape rfl s
  · exact codeUnits_escape rfl s
  · exact codeUnits_escape rfl s
  · exact codeUnits_escape rfl s
  · exact codeUnits_escape rfl s
  · exact codeUnits_escape rfl s
  · next hq hb _ _ _ _ _ =>
    split
    · next hc =>
      obtain ⟨d₁, d₂, d₃, d₄, hhex, hread⟩ := codeUnit_hex c.toNat hc
      rw [hhex]
      exact codeUnits_unit hread hs
    · next hc => exact codeUnits_plain hq hb hc s

theorem codeUnits_written (start s rest : List Char) :
    codeUnits start (s.flatMap writeChar ++ '"' :: rest) = .ok (s.map (·.toNat), rest) := by
  induction s with
  | nil => rw [List.flatMap_nil, List.nil_append, codeUnits, List.map_nil]
  | cons c s ih =>
    rw [List.flatMap_cons, List.append_assoc, codeUnits_writeChar c (by simp), ih]
    rfl

/-- A string that is written is read up to its closing quote. -/
theorem string_written (s : String) (rest : List Char) :
    string (s.toList.flatMap writeChar ++ '"' :: rest) = .ok (s, rest) := by
  rw [string, codeUnits_written]
  simp only [Except.map, joinUnits_toNat, String.ofList_toList]

end

/-! ## Integers -/

section
open Numeral

/-- What a text can be followed by so that nothing there belongs to a number in front of it. -/
def Ends (rest : List Char) : Prop := ∀ c ∈ rest.head?, c = ',' ∨ c = ']' ∨ c = '\x7d' ∨ c = '\n'

theorem decimal?_digitChar : ∀ d < 10, decimal? d.digitChar = some d := by decide

/-- A digit of base ten is of no other kind of character. -/
theorem digitChar_kind : ∀ d < 10, isNumeral d.digitChar = true ∧ isBlank d.digitChar = false ∧ d.digitChar ≠ '_' ∧
    d.digitChar ≠ '-' ∧ d.digitChar ≠ '+' := by decide

theorem exists_digit {n : Nat} {c : Char} (h : c ∈ Nat.toDigits 10 n) : ∃ d < 10, c = d.digitChar := by
  induction n using Nat.strongRecOn with
  | ind n ih =>
    rw [Nat.toDigits_eq_if (by decide)] at h
    split at h
    · next hn => exact ⟨n, hn, List.mem_singleton.mp h⟩
    · rcases List.mem_append.mp h with h | h
      · exact ih (n / 10) (by omega) h
      · exact ⟨n % 10, Nat.mod_lt _ (by decide), List.mem_singleton.mp h⟩

theorem isDecimal_of_mem_toDigits {n : Nat} : ∀ c ∈ Nat.toDigits 10 n, isDecimal c = true := by
  intro c hc
  obtain ⟨d, hd, rfl⟩ := exists_digit hc
  rw [isDecimal, decimal?_digitChar d hd]
  rfl

theorem isBlank_of_mem_toDigits {n : Nat} : ∀ c ∈ Nat.toDigits 10 n, isBlank c = false := by
  intro c hc
  obtain ⟨d, hd, rfl⟩ := exists_digit hc
  exact (digitChar_kind d hd).2.1

/-- The digits of a number read as the number. -/
theorem natOfDigits?_toDigits (n : Nat) : natOfDigits? (Nat.toDigits 10 n) = some n := by
  have hfold : ∀ n : Nat, (Nat.toDigits 10 n).foldl pushDigit (some 0) = some n := by
    intro n
    induction n using Nat.strongRecOn with
    | ind n ih =>
      rw [Nat.toDigits_eq_if (by decide)]
      split
      · next hn => simp [pushDigit, decimal?_digitChar n hn]
      · have hlast : decimal? (n % 10).digitChar = some (n % 10) := decimal?_digitChar _ (Nat.mod_lt _ (by decide))
        rw [List.foldl_append, ih (n / 10) (by omega)]
        simp only [List.foldl_cons, List.foldl_nil, pushDigit, hlast, Option.some.injEq]
        omega
  rw [natOfDigits?, if_neg (by simp [Nat.toDigits_ne_nil]), hfold]

theorem joinDigits_of_isDecimal {s : List Char} (h : ∀ c ∈ s, isDecimal c = true) (hlow : '_' ∉ s) :
    joinDigits true s = some s := by
  induction s with
  | nil => rfl
  | cons c s ih =>
    obtain ⟨hc, hs⟩ := List.forall_mem_cons.mp h
    rw [List.mem_cons, not_or] at hlow
    rw [joinDigits, if_neg (Ne.symm hlow.1), if_pos hc, ih hs hlow.2]
    rfl

theorem joinDigits_toDigits (n : Nat) : joinDigits false (Nat.toDigits 10 n) = some (Nat.toDigits 10 n) := by
  have hdecimal := isDecimal_of_mem_toDigits (n := n)
  have hlow : '_' ∉ Nat.toDigits 10 n := Nat.underscore_not_in_toDigits
  obtain ⟨c, s, h⟩ := List.exists_cons_of_ne_nil (Nat.toDigits_ne_nil (n := n) (b := 10))
  rw [h] at hdecimal hlow ⊢
  obtain ⟨hc, hs⟩ := List.forall_mem_cons.mp hdecimal
  rw [List.mem_cons, not_or] at hlow
  rw [joinDigits, if_neg (Ne.symm hlow.1), if_pos hc, joinDigits_of_isDecimal hs hlow.2]
  rfl

/-- The sign that is written in front of an integer. -/
def signOf (i : Int) : List Char := if i < 0 then ['-'] else []

theorem toList_toString (i : Int) : (toString i).toList = signOf i ++ Nat.toDigits 10 i.natAbs := by
  rw [Int.toString_eq_repr]
  cases i with
  | ofNat n => simp [signOf, Int.repr, Nat.repr_eq_ofList_toDigits]
  | negSucc n => simp [signOf, Int.repr, Nat.repr_eq_ofList_toDigits, Int.negSucc_lt_zero]

/-- No number begins with a sign of its own. -/
theorem toDigits_head {n : Nat} : ∃ c s, Nat.toDigits 10 n = c :: s ∧ isNumeral c = true ∧ c ≠ '-' ∧ c ≠ '+' := by
  obtain ⟨c, s, h⟩ := List.exists_cons_of_ne_nil (Nat.toDigits_ne_nil (n := n) (b := 10))
  obtain ⟨d, hd, rfl⟩ := exists_digit (n := n) (c := c) (by simp [h])
  obtain ⟨hnumeral, -, -, hminus, hplus⟩ := digitChar_kind d hd
  exact ⟨_, s, h, hnumeral, hminus, hplus⟩

theorem toDigits_head_ne_zero {n : Nat} (hn : n ≠ 0) : ∃ c s, Nat.toDigits 10 n = c :: s ∧ c ≠ '0' := by
  induction n using Nat.strongRecOn with
  | ind n ih =>
    rw [Nat.toDigits_eq_if (by decide)]
    split
    · exact ⟨_, [], rfl, by rwa [ne_eq, Nat.digitChar_eq_zero]⟩
    · obtain ⟨c, s, h, hc⟩ := ih (n / 10) (by omega) (by omega)
      exact ⟨c, s ++ [(n % 10).digitChar], by rw [h, List.cons_append], hc⟩

/-- An integer that is not too great is read from its digits. -/
theorem integer?_written {i : Int} (fits : i.natAbs < 10 ^ maxDigits) :
    integer? (signOf i ++ Nat.toDigits 10 i.natAbs) = .ok i := by
  have hlength : ¬maxDigits < (Nat.toDigits 10 i.natAbs).length := by
    rw [Nat.not_lt]
    exact (Nat.length_toDigits_le_iff (by decide) (by decide)).mpr fits
  have hblank : ∀ c ∈ signOf i ++ Nat.toDigits 10 i.natAbs, isBlank c = false := by
    refine List.forall_mem_append.mpr ⟨?_, isBlank_of_mem_toDigits⟩
    unfold signOf
    split
    · exact List.forall_mem_singleton.mpr (by decide)
    · exact List.forall_mem_nil _
  obtain ⟨c, s, hcs, -, hminus, hplus⟩ := toDigits_head (n := i.natAbs)
  have hsign : sign (signOf i ++ Nat.toDigits 10 i.natAbs) = (decide (i < 0), Nat.toDigits 10 i.natAbs) := by
    unfold signOf
    split
    · next hi => simp [sign, hi]
    · next hi =>
      rw [hcs, List.nil_append, sign]
      · simp [hi]
      · simpa using hminus
      · simpa using hplus
  have hvalue : (if decide (i < 0) = true then -(i.natAbs : Int) else (i.natAbs : Int)) = i := by
    split
    · next hi =>
      have := of_decide_eq_true hi
      omega
    · next hi =>
      have := of_decide_eq_false (Bool.eq_false_iff.mpr hi)
      omega
  rw [integer?, trim_of_not_blank hblank, hsign]
  simp only [joinDigits_toDigits, if_neg hlength, natOfDigits?_toDigits, hvalue]

namespace Ends
variable {rest : List Char}

/-- What follows a number begins with no character of a number. -/
theorem cases (h : Ends rest) : rest = [] ∨ ∃ c r, rest = c :: r ∧ isNumeral c = false ∧ c ≠ '.' ∧ c ≠ 'e' ∧ c ≠ 'E' := by
  cases rest with
  | nil => exact .inl rfl
  | cons c r =>
    refine .inr ⟨c, r, rfl, ?_⟩
    rcases h c rfl with rfl | rfl | rfl | rfl <;> decide

theorem takeWhile (h : Ends rest) : rest.takeWhile isNumeral = [] ∧ rest.dropWhile isNumeral = rest := by
  obtain rfl | ⟨c, r, rfl, hc, -⟩ := h.cases
  · exact ⟨rfl, rfl⟩
  · simp [hc]

theorem fraction (h : Ends rest) : fraction rest = ([], rest) := by
  obtain rfl | ⟨c, r, rfl, -, hc, -⟩ := h.cases
  · rfl
  · rw [Json.fraction]
    simpa using hc

theorem exponent (h : Ends rest) : exponent rest = ([], rest) := by
  obtain rfl | ⟨c, r, rfl, -, -, he, hE⟩ := h.cases
  · rfl
  · rw [Json.exponent, if_neg (by simp [he, hE])]

/-- The digits of a number are its whole part. -/
theorem whole (h : Ends rest) (n : Nat) : whole? (Nat.toDigits 10 n ++ rest) = some (Nat.toDigits 10 n, rest) := by
  by_cases hn : n = 0
  · -- zero alone begins with a zero, behind which no digit is read
    subst hn
    rfl
  · have hall : ∀ c ∈ Nat.toDigits 10 n, isNumeral c = true := by
      intro c hc
      obtain ⟨d, hd, rfl⟩ := exists_digit hc
      exact (digitChar_kind d hd).1
    obtain ⟨c, s, hcs, hzero⟩ := toDigits_head_ne_zero hn
    rw [hcs] at hall ⊢
    obtain ⟨hc, hs⟩ := List.forall_mem_cons.mp hall
    rw [List.cons_append, whole?, if_pos hc, List.takeWhile_append_of_pos hs, List.dropWhile_append_of_pos hs,
      h.takeWhile.1, h.takeWhile.2, List.append_nil]
    simpa using hzero

end Ends

/-- An integer that is not too great is read up to its end. -/
theorem number_written {i : Int} (fits : i.natAbs < 10 ^ maxDigits) {rest : List Char} (h : Ends rest) :
    number ((toString i).toList ++ rest) = .ok (.int i, rest) := by
  have hminus : minus ((toString i).toList ++ rest) = (signOf i, Nat.toDigits 10 i.natAbs ++ rest) := by
    rw [toList_toString, List.append_assoc]
    unfold signOf
    split
    · rfl
    · obtain ⟨c, s, hcs, -, hc, -⟩ := toDigits_head (n := i.natAbs)
      rw [hcs, List.nil_append, List.cons_append, minus]
      simpa using hc
  rw [number, hminus]
  simp only [h.whole, h.fraction, h.exponent, List.isEmpty_nil, Bool.and_self, if_true, integer?_written fits]

end
end Harvest.Json
