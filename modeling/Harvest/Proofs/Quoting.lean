import Harvest.Query.Invocation
import Harvest.Proofs.Pieces

/-
  Invocations that are written with every argument in quotes, and read back.

  A separator is any text that is not empty and does not begin with a quote; a text is clear of it in front of `r` when
  the separator begins nowhere in the text before `r` (`ClearOf`).
    1. `cellsFrom_bare`, `cellsFrom_separator`, `cellsFrom_quotation` — one lemma for each thing that is written: a text
       without quotes at its start, a separator, a text in quotes.
    2. `read_written` — a name and quoted arguments are read back as they are.
    3. `read_quotations` — so every list of arguments that can be put in quotes can be written and is read back, whichever
       quotes are taken, behind a name that the separator does not cut.
    4. `mem_of_mem_cells` — reading makes up no character.
-/
namespace Harvest.Text

theorem dropText?_eq_some {t s r : List Char} : dropText? t s = some r ↔ s = t ++ r := by
  induction t generalizing s with
  | nil => simp [dropText?, eq_comm]
  | cons a t ih =>
    cases s with
    | nil => simp [dropText?]
    | cons b s =>
      by_cases hab : a = b
      · subst hab
        simp [dropText?, ih]
      · simp [dropText?, hab, Ne.symm hab]

theorem startsWith_iff_prefix {t s : List Char} : startsWith t s = true ↔ t <+: s := by
  constructor
  · intro h
    obtain ⟨r, hr⟩ := Option.isSome_iff_exists.mp h
    exact ⟨r, (dropText?_eq_some.mp hr).symm⟩
  · rintro ⟨r, rfl⟩
    exact Option.isSome_iff_exists.mpr ⟨r, dropText?_eq_some.mpr rfl⟩

end Harvest.Text

namespace Harvest
open Text

/-- A text and a quote to write it with, which does not occur in it. -/
structure Quotation where
  text : List Char
  quote : Char
  is_quote : Invocation.isQuote quote = true
  not_mem : quote ∉ text

/-- A text in its quotes. -/
def Quotation.letters (a : Quotation) : List Char := a.quote :: (a.text ++ [a.quote])

/-- Whether one of the quotes does not occur in a text. -/
def LacksQuote (s : List Char) : Prop := ∃ q, Invocation.isQuote q = true ∧ q ∉ s

theorem LacksQuote.mono {s t : List Char} (h : LacksQuote s) (hst : ∀ c ∈ t, c ∈ s) : LacksQuote t := by
  obtain ⟨q, hq, hmem⟩ := h
  exact ⟨q, hq, fun hc => hmem (hst q hc)⟩

/-- Texts that each lack a quote can be put in quotes. -/
theorem exists_quotations {texts : List (List Char)} (h : ∀ s ∈ texts, LacksQuote s) :
    ∃ qs : List Quotation, qs.map (·.text) = texts := by
  induction texts with
  | nil => exact ⟨[], rfl⟩
  | cons s texts ih =>
    obtain ⟨hs, hrest⟩ := List.forall_mem_cons.mp h
    obtain ⟨q, hq, hmem⟩ := hs
    obtain ⟨qs, hqs⟩ := ih hrest
    exact ⟨⟨s, q, hq, hmem⟩ :: qs, by rw [List.map_cons, hqs]⟩

namespace Invocation

variable {sep cell r : List Char}

/-- There is a last cell, be it empty. -/
theorem cellsFrom_ne_nil (s : List Char) (quote : Option Char) (skip : Nat) (cell : List Char) :
    cellsFrom sep quote skip cell s ≠ [] := by
  induction s generalizing quote skip cell with
  | nil => simp [cellsFrom]
  | cons c s ih =>
    cases quote with
    | some q =>
      rw [cellsFrom]
      split
      · exact ih _ _ _
      · exact ih _ _ _
    | none =>
      cases skip with
      | succ skip => exact ih _ _ _
      | zero =>
        rw [cellsFrom]
        split
        · exact ih _ _ _
        · split
          · exact List.cons_ne_nil _ _
          · exact ih _ _ _

/-! ## The parts of what is written -/

/-- The separator begins nowhere in a text before `r`. -/
def ClearOf (sep s r : List Char) : Prop := ∀ u v, s = u ++ v → v ≠ [] → startsWith sep (v ++ r) = false

/-- No quote opens a quotation in a text behind `cell`. -/
def NoOpening (cell s : List Char) : Prop :=
  ∀ u c v, s = u ++ c :: v → isQuote c = true → allBlank (u.reverse ++ cell) = false

theorem isBlank_of_isQuote {c : Char} (hc : isQuote c = true) : isBlank c = false := by
  simp only [isQuote, Bool.or_eq_true, beq_iff_eq] at hc
  rcases hc with rfl | rfl
  · decide
  · decide

/-- A separator of one character begins in no text without it. -/
theorem clearOf_single {c : Char} {s : List Char} (h : c ∉ s) : ClearOf [c] s r := by
  intro u v huv hv
  obtain ⟨d, v, rfl⟩ := List.exists_cons_of_ne_nil hv
  have hd : c ≠ d := by
    rintro rfl
    exact h (by simp [huv])
  rw [List.cons_append, startsWith_single, decide_eq_false hd]

/-- A text that no separator cuts and no quote opens is taken as it is. -/
theorem cellsFrom_bare {s : List Char} (hs : ClearOf sep s r) (hq : NoOpening cell s) :
    cellsFrom sep none 0 cell (s ++ r) = cellsFrom sep none 0 (s.reverse ++ cell) r := by
  induction s generalizing cell with
  | nil => rfl
  | cons c s ih =>
    have hopen : (isQuote c && allBlank cell) = false := by
      cases hc : isQuote c with
      | false => rfl
      | true => simpa using hq [] c s rfl hc
    have hcut : startsWith sep (c :: (s ++ r)) = false := hs [] (c :: s) rfl (List.cons_ne_nil c s)
    have hs' : ClearOf sep s r := fun u v h => hs (c :: u) v (by rw [h, List.cons_append])
    have hq' : NoOpening (c :: cell) s := by
      intro u d v h hd
      have hblank := hq (c :: u) d v (by rw [h, List.cons_append]) hd
      simpa using hblank
    rw [List.cons_append, cellsFrom, hopen, if_neg Bool.false_ne_true, hcut, if_neg Bool.false_ne_true, ih hs' hq',
      List.reverse_cons, List.append_assoc, List.singleton_append]

/-- The rest of a separator is passed over. -/
theorem cellsFrom_skip (w r : List Char) : cellsFrom sep none w.length cell (w ++ r) = cellsFrom sep none 0 cell r := by
  induction w with
  | nil => rfl
  | cons c w ih => rw [List.length_cons, List.cons_append, cellsFrom, ih]

/-- A separator ends a cell. -/
theorem cellsFrom_separator {c : Char} {w : List Char} (hc : isQuote c = false) (cell r : List Char) :
    cellsFrom (c :: w) none 0 cell (c :: w ++ r) = cell.reverse :: cellsFrom (c :: w) none 0 [] r := by
  have hcut : startsWith (c :: w) (c :: (w ++ r)) = true := startsWith_iff_prefix.mpr (List.prefix_append (c :: w) r)
  rw [List.cons_append, cellsFrom, hc, Bool.false_and, if_neg Bool.false_ne_true, if_pos hcut, List.length_cons,
    Nat.add_sub_cancel, cellsFrom_skip]

/-- Within quotes everything is taken as it is, up to the quote that closes them. -/
theorem cellsFrom_inside {q : Char} {s : List Char} (hs : q ∉ s) (cell r : List Char) :
    cellsFrom sep (some q) 0 cell (s ++ q :: r) = cellsFrom sep none 0 (s.reverse ++ cell) r := by
  induction s generalizing cell with
  | nil => rw [List.nil_append, cellsFrom, if_pos rfl, List.reverse_nil, List.nil_append]
  | cons c s ih =>
    obtain ⟨hne, hs⟩ := not_or.mp (fun h => hs (List.mem_cons.mpr h))
    rw [List.cons_append, cellsFrom, if_neg (Ne.symm hne), ih hs, List.reverse_cons, List.append_assoc,
      List.singleton_append]

/-- A text in quotes at the start of a cell is taken without them. -/
theorem cellsFrom_quotation (a : Quotation) (r : List Char) :
    cellsFrom sep none 0 [] (a.letters ++ r) = cellsFrom sep none 0 a.text.reverse r := by
  have hopen : (isQuote a.quote && allBlank []) = true := by simp [a.is_quote, allBlank]
  rw [Quotation.letters, List.cons_append, List.append_assoc, List.singleton_append, cellsFrom, if_pos hopen,
    cellsFrom_inside a.not_mem, List.append_nil]

/-! ## What is written, and what is read -/

/-- A name, and behind it each argument in quotes with the separator in front. -/
def written (sep name : List Char) (args : List Quotation) : List Char :=
  name ++ args.flatMap fun a => sep ++ a.letters

/-- Arguments behind a cell, by induction on their number. -/
theorem cellsFrom_args {c : Char} {w : List Char} (hc : isQuote c = false) (args : List Quotation)
    (cell : List Char) : cellsFrom (c :: w) none 0 cell (args.flatMap fun a => c :: w ++ a.letters)
      = cell.reverse :: args.map (·.text) := by
  induction args generalizing cell with
  | nil => rfl
  | cons a args ih =>
    rw [List.flatMap_cons, List.append_assoc, cellsFrom_separator hc, cellsFrom_quotation, ih, List.reverse_reverse,
      List.map_cons]

/-- The cells of what is written are the name and the arguments. -/
theorem cells_written {name : List Char} (args : List Quotation) (hsep : sep ≠ [])
    (hquote : ∀ c ∈ sep, isQuote c = false) (hname : ClearOf sep name sep) (hopen : NoOpening [] name) :
    cells sep (written sep name args) = name :: args.map (·.text) := by
  obtain ⟨c, w, rfl⟩ := List.exists_cons_of_ne_nil hsep
  -- a separator that begins in the name would end in it, or in the separator behind it
  have hclear : ClearOf (c :: w) name (args.flatMap fun a => c :: w ++ a.letters) := by
    intro u v huv hv
    have hbehind := hname u v huv hv
    rw [← Bool.not_eq_true, startsWith_iff_prefix] at hbehind ⊢
    intro hprefix
    apply hbehind
    cases args with
    | nil =>
      rw [List.flatMap_nil, List.append_nil] at hprefix
      exact hprefix.trans (List.prefix_append v _)
    | cons a args =>
      rw [List.flatMap_cons, List.append_assoc, ← List.append_assoc] at hprefix
      refine List.prefix_of_prefix_length_le hprefix (List.prefix_append _ _) ?_
      rw [List.length_append]
      omega
  rw [cells, written, cellsFrom_bare hclear hopen, cellsFrom_args (hquote c List.mem_cons_self), List.append_nil,
    List.reverse_reverse]

/-- A text in which the first thing but blanks is no quote opens no quotation. -/
theorem noOpening_of_trimLeft {s : List Char} (h : ∀ c r, trimLeft s = c :: r → isQuote c = false) : NoOpening [] s := by
  intro u c v huv hc
  rw [List.append_nil, allBlank_reverse, ← Bool.not_eq_true]
  intro hblank
  -- a quote behind blanks would be the first thing
  have hfirst : trimLeft s = c :: v := by
    rw [huv, trimLeft_append (List.all_eq_true.mp hblank), trimLeft_cons_of_not_blank (isBlank_of_isQuote hc)]
  rw [h c v hfirst] at hc
  cases hc

/-- The first cell, trimmed, is the name, and the others are the arguments. -/
theorem read_of_cells {separator text : String} {c : List Char} {cs : List (List Char)}
    (h : cells separator.toList text.toList = c :: cs) :
    read separator text = ⟨String.ofList (trim c), cs.map String.ofList⟩ := by
  rw [read, h]

theorem read_written (separator : String) {name : List Char} (args : List Quotation)
    (hsep : separator.toList ≠ []) (hquote : ∀ c ∈ separator.toList, isQuote c = false)
    (hname : ClearOf separator.toList name separator.toList)
    (ht : trim name = name) (hq : ∀ c r, name = c :: r → isQuote c = false) :
    read separator (String.ofList (written separator.toList name args))
      = ⟨String.ofList name, args.map fun a => String.ofList a.text⟩ := by
  have hopen : NoOpening [] name := noOpening_of_trimLeft (by rwa [trimLeft_of_trim ht])
  have hcells := cells_written args hsep hquote hname hopen
  rw [← String.toList_ofList (l := written separator.toList name args)] at hcells
  rw [read_of_cells hcells, ht, List.map_map]
  rfl

/-- Where the separator is first met at the end of the name, it begins nowhere within the name. -/
theorem clearOf_of_first {name : List Char} (hfirst : ∀ u v, name ++ sep = u ++ (sep ++ v) → name.length ≤ u.length) :
    ClearOf sep name sep := by
  intro u v huv hv
  rw [← Bool.not_eq_true, startsWith_iff_prefix]
  rintro ⟨t, ht⟩
  have hat : name ++ sep = u ++ (sep ++ t) := by rw [huv, List.append_assoc, ht]
  have hle := hfirst u t hat
  have hpos := List.length_pos_iff.mpr hv
  rw [huv, List.length_append] at hle
  omega

/-- Arguments that each lack a quote can be written in quotes, and behind a trimmed name that begins with no quote and
ends where the separator is first met they are read back, whichever quotes are taken. -/
theorem read_quotations (separator name : String) (args : List String)
    (hsep : separator.toList ≠ []) (hquote : ∀ c ∈ separator.toList, isQuote c = false)
    (ht : trim name.toList = name.toList) (hq : ∀ c r, name.toList = c :: r → isQuote c = false)
    (hfirst : ∀ u v, name.toList ++ separator.toList = u ++ (separator.toList ++ v) → name.toList.length ≤ u.length)
    (hargs : ∀ a ∈ args, LacksQuote a.toList) :
    (∃ qs : List Quotation, qs.map (·.text) = args.map String.toList) ∧
      ∀ qs : List Quotation, qs.map (·.text) = args.map String.toList →
        read separator (String.ofList (written separator.toList name.toList qs)) = ⟨name, args⟩ := by
  have hlacks : ∀ s ∈ args.map String.toList, LacksQuote s := by
    intro s hs
    obtain ⟨a, ha, rfl⟩ := List.mem_map.mp hs
    exact hargs a ha
  refine ⟨exists_quotations hlacks, ?_⟩
  intro qs hqs
  have hread := read_written separator qs hsep hquote (clearOf_of_first hfirst) ht hq
  have htexts : (qs.map fun a => String.ofList a.text) = args := by
    calc (qs.map fun a => String.ofList a.text)
        = (qs.map (·.text)).map String.ofList := by rw [List.map_map]; rfl
      _ = (args.map String.toList).map String.ofList := by rw [hqs]
      _ = args := by simp
  rw [hread, htexts, String.ofList_toList]

/-- The separator begins with the character that the name ends in; the arguments are empty, blank, hold the separator or
hold the other quote. -/
theorem read_quotations_sample :
    let args := ["", "  ", "it's: so", ": \"x\""]
    ": ".toList ≠ [] ∧ (∀ c ∈ ": ".toList, isQuote c = false) ∧ trim "pad:".toList = "pad:".toList
      ∧ (∀ c r, "pad:".toList = c :: r → isQuote c = false)
      ∧ (∀ u v, "pad:".toList ++ ": ".toList = u ++ (": ".toList ++ v) → "pad:".toList.length ≤ u.length)
      ∧ (∀ a ∈ args, LacksQuote a.toList)
      ∧ read ": " "pad:: \"\": '  ': \"it's: so\": ': \"x\"'" = ⟨"pad:", args⟩ := by
  have hsep : ": ".toList ≠ [] := by decide
  have hquote : ∀ c ∈ ": ".toList, isQuote c = false := by simp [isQuote]
  have ht : trim "pad:".toList = "pad:".toList := by decide
  have hq : ∀ c r, "pad:".toList = c :: r → isQuote c = false := by
    intro c r h
    rw [← (List.cons.inj h).1]
    decide
  have hfirst : ∀ u v, "pad:".toList ++ ": ".toList = u ++ (": ".toList ++ v) → "pad:".toList.length ≤ u.length := by
    intro u v h
    match u with
    | [] | [_] | [_, _] | [_, _, _] => simp at h
    | _ :: _ :: _ :: _ :: u => simp
  have hargs : ∀ a ∈ ["", "  ", "it's: so", ": \"x\""], LacksQuote a.toList := by
    simp only [List.forall_mem_cons]
    exact ⟨⟨'"', by decide⟩, ⟨'"', by decide⟩, ⟨'"', by decide⟩, ⟨'\'', by decide⟩, by simp⟩
  let qs : List Quotation := [⟨[], '"', by decide, by decide⟩, ⟨"  ".toList, '\'', by decide, by decide⟩,
    ⟨"it's: so".toList, '"', by decide, by decide⟩, ⟨": \"x\"".toList, '\'', by decide, by decide⟩]
  exact ⟨hsep, hquote, ht, hq, hfirst, hargs,
    (read_quotations ": " "pad:" ["", "  ", "it's: so", ": \"x\""] hsep hquote ht hq hfirst hargs).2 qs rfl⟩

/-! ## Characters of cells -/

/-- Each character of a cell was read, now or before. -/
theorem mem_of_mem_cellsFrom {c : Char} : ∀ (s : List Char) (quote : Option Char) (skip : Nat) (cell : List Char),
    ∀ t ∈ cellsFrom sep quote skip cell s, c ∈ t → c ∈ cell ∨ c ∈ s := by
  intro s
  induction s with
  | nil =>
    intro quote skip cell t ht hc
    rw [cellsFrom, List.mem_singleton] at ht
    subst ht
    exact .inl (List.mem_reverse.mp hc)
  | cons d s ih =>
    intro quote skip cell t ht hc
    -- what is read further on, with a cell that holds the next character or not
    have hrest : ∀ quote skip cell', t ∈ cellsFrom sep quote skip cell' s → (∀ x ∈ cell', x ∈ d :: cell) →
        c ∈ cell ∨ c ∈ d :: s := by
      intro quote skip cell' ht hcell
      rcases ih quote skip cell' t ht hc with h | h
      · rcases List.mem_cons.mp (hcell c h) with rfl | h
        · exact .inr List.mem_cons_self
        · exact .inl h
      · exact .inr (List.mem_cons_of_mem d h)
    have hkeep : ∀ x ∈ cell, x ∈ d :: cell := fun x hx => List.mem_cons_of_mem d hx
    cases quote with
    | some q =>
      rw [cellsFrom] at ht
      split at ht
      · exact hrest _ _ _ ht hkeep
      · exact hrest _ _ _ ht fun _ hx => hx
    | none =>
      cases skip with
      | succ skip =>
        rw [cellsFrom] at ht
        exact hrest _ _ _ ht hkeep
      | zero =>
        rw [cellsFrom] at ht
        split at ht
        · exact hrest _ _ _ ht (by simp)
        · split at ht
          · rcases List.mem_cons.mp ht with rfl | ht
            · exact .inl (List.mem_reverse.mp hc)
            · exact hrest _ _ _ ht (by simp)
          · exact hrest _ _ _ ht fun _ hx => hx

theorem mem_of_mem_cells {c : Char} {s t : List Char} (ht : t ∈ cells sep s) (hc : c ∈ t) : c ∈ s := by
  rcases mem_of_mem_cellsFrom s none 0 [] t ht hc with h | h
  · cases h
  · exact h

/-- Each character of an argument stands in the text that was read. -/
theorem mem_of_mem_args {c : Char} {separator text a : String} (ha : a ∈ (read separator text).args)
    (hc : c ∈ a.toList) : c ∈ text.toList := by
  rw [read] at ha
  split at ha
  · cases ha
  · next d ds hcells =>
    obtain ⟨t, ht, rfl⟩ := List.mem_map.mp ha
    have hcell : t ∈ cells separator.toList text.toList := hcells ▸ List.mem_cons_of_mem d ht
    rw [String.toList_ofList] at hc
    exact mem_of_mem_cells hcell hc

end Invocation
end Harvest
