import Harvest.Filter.Standard
import Harvest.Proofs.Casing
import Harvest.Proofs.Exact
import Harvest.Proofs.Pieces
import Harvest.Proofs.Scalar

/-
  Sizes in bytes, exactly.

  The search passes over what is no amount, takes a whole run of amount characters and looks for a unit behind the
  blanks that follow (`find?_size`). Every unit that it finds is one of ten (`exists_unit`), and the table has all of
  them. Whole amounts below 2^53 are doubles, and so are their products with powers of 1024, so that nothing is lost on
  the way (`bytesOf_toDigits`).
    1. `bytes_exact` — a whole number with a unit is so many bytes, whatever stands around it; and the table has the
       unit of every size.
-/
namespace Harvest
open Text

/-! ## Units -/

namespace Size
variable {s t u w r ds amount : List Char} {c : Char} {k : Fin 5} {marked : Bool}

/-- The scale letter for a power of 1024. -/
def scale : Fin 5 → List Char
  | 0 => []
  | 1 => ['K']
  | 2 => ['M']
  | 3 => ['G']
  | 4 => ['T']

/-- The unit of a power of 1024 bytes, with an I or without. -/
def unit (k : Fin 5) (marked : Bool) : List Char := scale k ++ (if marked then ['I'] else []) ++ ['B']

theorem unit?_unit (k : Fin 5) (marked : Bool) (s : List Char) : unit? (unit k marked ++ s) = some (unit k marked) := by
  match k with
  | 0 | 1 | 2 | 3 | 4 => cases marked <;> rfl

/-- The table has every unit. -/
theorem factor?_unit : ∀ (k : Fin 5) (marked : Bool), factor? (unit k marked) = some (1024 ^ k.val) := by decide

theorem factor_unit (k : Fin 5) (marked : Bool) : factor (unit k marked) = 1024 ^ k.val := by
  rw [factor, factor?_unit, Option.getD_some]

/-- A unit begins with a letter. -/
theorem unit_head (k : Fin 5) (marked : Bool) :
    ∃ c s, unit k marked = c :: s ∧ isBlank c = false ∧ isAmount c = false := by
  have hall : ∀ (k : Fin 5) (marked : Bool), (unit k marked).all (fun c => !isBlank c && !isAmount c) = true := by
    decide +kernel
  obtain ⟨c, s, hcs⟩ := List.exists_cons_of_ne_nil (show unit k marked ≠ [] by simp [unit])
  have hc := List.all_eq_true.mp (hall k marked) c (by simp [hcs])
  rw [Bool.and_eq_true, Bool.not_eq_true', Bool.not_eq_true'] at hc
  exact ⟨c, s, hcs, hc⟩

theorem takeScale_eq (s : List Char) : ∃ k r, takeScale s = (scale k, r) ∧ s = scale k ++ r := by
  cases s with
  | nil => exact ⟨0, [], rfl, rfl⟩
  | cons c s =>
    rw [takeScale]
    split
    · next hc =>
      simp only [scaleLetters, List.contains_eq_mem, List.mem_cons, List.not_mem_nil, or_false, decide_eq_true_eq] at hc
      rcases hc with rfl | rfl | rfl | rfl
      · exact ⟨1, s, rfl, rfl⟩
      · exact ⟨2, s, rfl, rfl⟩
      · exact ⟨3, s, rfl, rfl⟩
      · exact ⟨4, s, rfl, rfl⟩
    · exact ⟨0, c :: s, rfl, rfl⟩

theorem takeBinaryMark_eq (s : List Char) :
    ∃ (marked : Bool) (r : List Char), takeBinaryMark s = (if marked then ['I'] else [], r) ∧
      s = (if marked then ['I'] else []) ++ r := by
  unfold takeBinaryMark
  split
  · exact ⟨true, _, rfl, rfl⟩
  · exact ⟨false, s, rfl, rfl⟩

/-- There are no other units. -/
theorem exists_unit (h : unit? s = some u) : ∃ k marked r, u = unit k marked ∧ s = u ++ r := by
  obtain ⟨k, r, hk, hs⟩ := takeScale_eq s
  obtain ⟨marked, r', hmarked, hr⟩ := takeBinaryMark_eq r
  simp only [unit?, hk, hmarked] at h
  split at h
  · next hhead =>
    obtain ⟨t, rfl⟩ := List.head?_eq_some_iff.mp hhead
    cases h
    exact ⟨k, marked, t, rfl, by rw [hs, hr]; simp⟩
  · cases h

/-- What begins with a blank or a character of an amount begins with no unit. -/
theorem unit?_cons_eq_none (hc : isBlank c = true ∨ isAmount c = true) (s : List Char) : unit? (c :: s) = none := by
  rw [Option.eq_none_iff_forall_ne_some]
  intro u hu
  obtain ⟨k, marked, r, rfl, hs⟩ := exists_unit hu
  obtain ⟨d, v, hd, hblank, hamount⟩ := unit_head k marked
  rw [hd, List.cons_append, List.cons.injEq] at hs
  obtain ⟨rfl, -⟩ := hs
  simp [hblank, hamount] at hc

/-! ## The search -/

theorem findFrom_skip (hs : ∀ c ∈ s, isAmount c = false) (t : List Char) : findFrom [] (s ++ t) = findFrom [] t := by
  induction s with
  | nil => rfl
  | cons c s ih =>
    obtain ⟨hc, hs⟩ := List.forall_mem_cons.mp hs
    rw [List.cons_append, findFrom, if_neg (by simp [hc]), List.isEmpty_nil, if_pos rfl, ih hs]

theorem findFrom_amount (hds : ∀ c ∈ ds, isAmount c = true) (amount t : List Char) :
    findFrom amount (ds ++ t) = findFrom (ds.reverse ++ amount) t := by
  induction ds generalizing amount with
  | nil => rfl
  | cons c ds ih =>
    obtain ⟨hc, hds⟩ := List.forall_mem_cons.mp hds
    rw [List.cons_append, findFrom, if_pos hc, ih hds, List.reverse_cons, List.append_assoc, List.singleton_append]

/-- Behind an amount a unit is looked for, behind blanks; without one the search goes on from there. -/
theorem findFrom_behind (ha : amount ≠ []) (hr : ∀ c ∈ r.head?, isAmount c = false) :
    findFrom amount r = ((unit? (trimLeft r)).map (amount.reverse, ·)).or (findFrom [] r) := by
  cases r with
  | nil => rfl
  | cons c r =>
    have hc : isAmount c = false := hr c rfl
    rw [findFrom, findFrom, if_neg (by simp [hc]), if_neg (by simpa using ha), if_neg (by simp [hc]),
      List.isEmpty_nil, if_pos rfl]

/-- Behind an amount a unit is found, blanks between them. -/
theorem findFrom_unit (hw : ∀ c ∈ w, isBlank c = true) (ha : amount ≠ []) (k : Fin 5) (marked : Bool) (s : List Char) :
    findFrom amount (w ++ (unit k marked ++ s)) = some (amount.reverse, unit k marked) := by
  obtain ⟨c, r, hu, hblank, hletter⟩ := unit_head k marked
  have htrim : trimLeft (w ++ (unit k marked ++ s)) = unit k marked ++ s := by
    rw [trimLeft_append hw, hu, List.cons_append, trimLeft_cons_of_not_blank hblank]
  have hstops : ∀ d ∈ (w ++ (unit k marked ++ s)).head?, isAmount d = false := by
    cases w with
    | nil =>
      rw [List.nil_append, hu]
      rintro d ⟨rfl⟩
      exact hletter
    | cons d w =>
      rintro d ⟨rfl⟩
      exact not_isAmount_of_isBlank (hw d List.mem_cons_self)
  rw [findFrom_behind ha hstops, htrim, unit?_unit]
  rfl

/-- The search finds the first amount, if a unit follows it. -/
theorem find?_size (hs : ∀ c ∈ s, isAmount c = false) (hne : ds ≠ []) (hds : ∀ c ∈ ds, isAmount c = true)
    (hw : ∀ c ∈ w, isBlank c = true) (k : Fin 5) (marked : Bool) (t : List Char) :
    find? (s ++ (ds ++ (w ++ (unit k marked ++ t)))) = some (ds, unit k marked) := by
  have hreverse : ds.reverse ++ [] ≠ [] := by simpa using hne
  rw [find?, findFrom_skip hs, findFrom_amount hds, findFrom_unit hw hreverse, List.append_nil, List.reverse_reverse]

/-- What the search gives is a unit. -/
theorem exists_unit_of_findFrom {start : List Char} (h : findFrom start s = some (amount, u)) :
    ∃ k marked, u = unit k marked := by
  induction s generalizing start with
  | nil => cases h
  | cons c s ih =>
    rw [findFrom] at h
    split at h
    · exact ih h
    · split at h
      · exact ih h
      · rcases Option.or_eq_some_iff.mp h with h | ⟨-, h⟩
        · obtain ⟨v, hv, hpair⟩ := Option.map_eq_some_iff.mp h
          cases hpair
          obtain ⟨k, marked, -, hu, -⟩ := exists_unit hv
          exact ⟨k, marked, hu⟩
        · exact ih h

/-- The table has the unit of every size. -/
theorem factor?_isSome (h : find? s = some (amount, u)) : (factor? u).isSome = true := by
  obtain ⟨k, marked, rfl⟩ := exists_unit_of_findFrom h
  rw [factor?_unit]
  rfl

end Size

/-! ## Amounts -/

namespace Numeral

/-- The digits of a number are no word. -/
theorem ofList_lowerAscii_toDigits_ne (n : Nat) (word : String) (h : ∀ d < 10, word.toList.head? ≠ some d.digitChar) :
    (String.ofList (lowerAscii (Nat.toDigits 10 n)) == word) = false := by
  obtain ⟨c, s, hcs⟩ := List.exists_cons_of_ne_nil (Nat.toDigits_ne_nil (n := n) (b := 10))
  obtain ⟨d, hd, rfl⟩ := Json.exists_digit (n := n) (c := c) (by simp [hcs])
  have hlower : ∀ d < 10, (if d.digitChar.toNat < 0x80 then d.digitChar.toLower else d.digitChar) = d.digitChar := by
    decide
  rw [beq_eq_false_iff_ne]
  rintro rfl
  refine h d hd ?_
  rw [String.toList_ofList, hcs, lowerAscii, List.map_cons, hlower d hd, List.head?_cons]

theorem pointParts_of_isDecimal {ds : List Char} (h : ∀ c ∈ ds, isDecimal c = true) : pointParts ds = (ds, [], []) := by
  have hall : ∀ c ∈ ds, (c == '_' || isDecimal c) = true := fun c hc => by simp [h c hc]
  simp only [pointParts, List.takeWhile_eq_self_iff.mpr hall, List.dropWhile_eq_nil_iff.mpr hall]

/-- The digits of a number are read as the double nearest to it. -/
theorem double?_toDigits (n : Nat) : double? (Nat.toDigits 10 n) = some (Double.ofScientific false n 0) := by
  have hsign : sign (Nat.toDigits 10 n) = (false, Nat.toDigits 10 n) := by
    obtain ⟨c, s, hcs, -, hminus, hplus⟩ := Json.toDigits_head (n := n)
    rw [hcs, sign]
    · simpa using hminus
    · simpa using hplus
  have hinf := ofList_lowerAscii_toDigits_ne n "inf" (by decide)
  have hinfinity := ofList_lowerAscii_toDigits_ne n "infinity" (by decide)
  have hnan := ofList_lowerAscii_toDigits_ne n "nan" (by decide)
  have hwhole : optionalDigits (Nat.toDigits 10 n) = some (Nat.toDigits 10 n) := by
    rw [optionalDigits, if_neg (by simp [Nat.toDigits_ne_nil]), Json.joinDigits_toDigits]
  have hvalue : assemble false (Nat.toDigits 10 n) [] 0 = some (Double.ofScientific false n 0) := by
    rw [assemble, List.append_nil, Json.natOfDigits?_toDigits]
    rfl
  simp only [double?, trim_of_not_blank Json.isBlank_of_mem_toDigits, hsign, hinf, hinfinity, hnan,
    pointParts_of_isDecimal Json.isDecimal_of_mem_toDigits, hwhole]
  exact hvalue

end Numeral

/-! ## Sizes -/

namespace Filter
open Size Double
variable {n : Nat} {k : Fin 5} {marked : Bool} {s p w u t : List Char}

/-- A whole amount of units is exact. -/
theorem bytesOf_toDigits (hn : n < 2 ^ 53) (k : Fin 5) :
    bytesOf (Nat.toDigits 10 n) (1024 ^ k.val) = .ok (.int (n * 1024 ^ k.val : Nat)) := by
  have hk : ((10 * k.val : Nat) : Int) ≤ maxExponent := by
    have := k.isLt
    simp only [maxExponent]
    omega
  have hpow : 1024 ^ k.val = 2 ^ (10 * k.val) := (pow_mul 2 10 k.val).symm
  have hamount : Exact (ofScientific false n 0) n := exact_ofScientific ⟨n, 0, hn, by decide, by simp⟩
  have hfactor : Exact (ofInt (1024 ^ k.val : Nat)) (1024 ^ k.val) :=
    exact_ofInt ⟨1, 10 * k.val, by decide, hk, by rw [hpow, Nat.one_mul]⟩
  have hproduct := hamount.mul hfactor ⟨n, 10 * k.val, hn, hk, by rw [hpow]⟩
  simp only [bytesOf, Numeral.double?_toDigits, hproduct.truncate?]

theorem run_bytes (s : String) : bytes.run (.text s) [] = sizeIn s.toList := rfl

theorem isAmount_of_mem_toDigits {c : Char} (h : c ∈ Nat.toDigits 10 n) : isAmount c = true := by
  rw [isAmount, Json.isDecimal_of_mem_toDigits c h, Bool.or_true]

/-- What has a unit for its capitals ends in neither a blank nor a digit, as its last capital is a B. -/
theorem exists_last (hu : Text.upper u = unit k marked) :
    ∃ v c, u = v ++ [c] ∧ isBlank c = false ∧ isDigit c = false := by
  cases u using List.reverseRecOn with
  | nil =>
    obtain ⟨c, s, hcs, -⟩ := unit_head k marked
    rw [hcs] at hu
    cases hu
  | append_singleton v c =>
    have hlast : ∀ d, upperChar c = [d] → d = 'B' := by
      intro d hd
      have happend : Text.upper (v ++ [c]) = Text.upper v ++ [d] := by simp [Text.upper, hd]
      rw [happend, unit] at hu
      simpa using (List.append_inj' hu rfl).2
    refine ⟨v, c, rfl, ?_, ?_⟩
    · rw [Bool.eq_false_iff]
      intro hc
      have hB := hlast c (upperChar_of_isBlank hc)
      subst hB
      revert hc
      decide
    · rw [Bool.eq_false_iff]
      intro hc
      have hB := hlast c (upperChar_of_isDigit hc)
      subst hB
      revert hc
      decide +kernel

/-- A size keeps its place when the text around it is trimmed. -/
theorem trim_size (hu : Text.upper u = unit k marked) (p t : List Char) :
    Text.trim (p ++ (Nat.toDigits 10 n ++ (w ++ u) ++ t))
      = trimLeft p ++ (Nat.toDigits 10 n ++ (w ++ u) ++ trimRight t) := by
  obtain ⟨v, c, rfl, hblank, -⟩ := exists_last hu
  obtain ⟨d, ds, hds⟩ := List.exists_cons_of_ne_nil (Nat.toDigits_ne_nil (n := n) (b := 10))
  have hd : isBlank d = false := Json.isBlank_of_mem_toDigits (n := n) d (by simp [hds])
  have hfront : trimLeft (Nat.toDigits 10 n ++ (w ++ (v ++ [c]))) = Nat.toDigits 10 n ++ (w ++ (v ++ [c])) := by
    rw [hds, List.cons_append]
    exact trimLeft_cons_of_not_blank hd _
  have hback : trimRight (Nat.toDigits 10 n ++ (w ++ (v ++ [c]))) = Nat.toDigits 10 n ++ (w ++ (v ++ [c])) := by
    rw [← List.append_assoc, ← List.append_assoc]
    exact trimRight_concat hblank _
  exact trim_between (by simp) (trim_of_ends hfront hback) p t

/-- A whole number, blanks and a unit give the number of bytes, if no amount stands before. -/
theorem sizeIn_eq (hn : n < 2 ^ 53) (hp : ∀ c ∈ p, isAmount c = false) (hw : ∀ c ∈ w, isBlank c = true)
    (hu : Text.upper u = unit k marked) (t : List Char) :
    sizeIn (p ++ (Nat.toDigits 10 n ++ (w ++ u) ++ t)) = .ok (.int (n * 1024 ^ k.val : Nat)) := by
  obtain ⟨v, c, hv, -, hdigit⟩ := exists_last hu
  have hletters : (trimLeft p ++ (Nat.toDigits 10 n ++ (w ++ u) ++ trimRight t)).all isDigit = false := by
    rw [List.all_eq_false]
    exact ⟨c, by simp [hv], by simp [hdigit]⟩
  have hdigits : Text.upper (Nat.toDigits 10 n) = Nat.toDigits 10 n := by
    refine upper_of_isDigit fun c hc => ?_
    rw [isDigit, Json.isDecimal_of_mem_toDigits c hc, Bool.true_or]
  have happend : ∀ a b, Text.upper (a ++ b) = Text.upper a ++ Text.upper b := fun a b => List.flatMap_append
  have hupper : Text.upper (trimLeft p ++ (Nat.toDigits 10 n ++ (w ++ u) ++ trimRight t))
      = Text.upper (trimLeft p) ++ (Nat.toDigits 10 n ++ (w ++ (unit k marked ++ Text.upper (trimRight t)))) := by
    simp only [happend, hdigits, upper_of_isBlank hw, hu, List.append_assoc]
  have hfront : ∀ c ∈ Text.upper (trimLeft p), isAmount c = false :=
    not_isAmount_upper fun c hc => hp c ((trimLeft_suffix p).subset hc)
  have hfind := find?_size hfront Nat.toDigits_ne_nil (fun _ => isAmount_of_mem_toDigits (n := n)) hw k marked
    (Text.upper (trimRight t))
  simp only [sizeIn, trim_size hu, hletters, hupper, hfind, Bool.and_false, Bool.false_eq_true, if_false, factor_unit,
    bytesOf_toDigits hn]

/-- Whole sizes are exact: a whole number below 2^53, blanks, and a unit in any case of its letters are the number times
the power of 1024 that the unit stands for, whatever follows, and whatever stands before without digits and points. And
the table has the unit of every size that is found, in any text. -/
theorem bytes_exact :
    (∀ (p w u t : String) (n : Nat) (k : Fin 5) (marked : Bool), n < 2 ^ 53 →
      (∀ c ∈ p.toList, c ≠ '.' ∧ isDecimal c = false) → (∀ c ∈ w.toList, isBlank c = true) →
      Text.upper u.toList = unit k marked →
      bytes.run (.text (p ++ toString n ++ w ++ u ++ t)) [] = .ok (.int (n * 1024 ^ k.val : Nat))) ∧
      ∀ (s amount unit : List Char), find? s = some (amount, unit) → (factor? unit).isSome = true := by
  refine ⟨?_, fun s amount unit => factor?_isSome⟩
  intro p w u t n k marked hn hp hw hu
  have hfront : ∀ c ∈ p.toList, isAmount c = false := by
    intro c hc
    rw [isAmount, beq_false_of_ne (hp c hc).1, (hp c hc).2, Bool.or_self]
  have htext : (p ++ toString n ++ w ++ u ++ t).toList
      = p.toList ++ (Nat.toDigits 10 n ++ (w.toList ++ u.toList) ++ t.toList) := by
    simp [Nat.toString_eq_repr, Nat.repr_eq_ofList_toDigits]
  rw [run_bytes, htext, sizeIn_eq hn hfront hw hu]

theorem bytes_exact_sample :
    bytes.run (.text ("about " ++ toString 7 ++ " \t" ++ "gIb" ++ "/s")) [] = .ok (.int (7 * 1024 ^ 3 : Nat)) ∧
      find? "1.5 KIB, 2 GB".toList = some ("1.5".toList, "KIB".toList) ∧ (factor? "KIB".toList).isSome = true := by
  have hfind : find? "1.5 KIB, 2 GB".toList = some ("1.5".toList, "KIB".toList) := by decide +kernel
  have hfront : "about ".toList.all (fun c => decide (c ≠ '.' ∧ isDecimal c = false)) = true := by decide +kernel
  have hblank : " \t".toList.all isBlank = true := by decide
  refine ⟨?_, hfind, bytes_exact.2 _ _ _ hfind⟩
  have hunit : Text.upper "gIb".toList = unit 3 true := by decide +kernel
  refine bytes_exact.1 "about " " \t" "gIb" "/s" 7 3 true (by decide) ?_ (List.all_eq_true.mp hblank) hunit
  intro c hc
  exact of_decide_eq_true (List.all_eq_true.mp hfront c hc)

end Filter
end Harvest
