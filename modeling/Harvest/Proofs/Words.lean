import Harvest.Filter.Standard
import Harvest.Proofs.Fallible
import Harvest.Proofs.Matching
import Harvest.Proofs.Pieces
import Harvest.Regex.Reader

/-
  The words of a text, and texts with one space between words.

  A text is taken apart into blanks, a word, and a rest that does not begin with more of the word (`Worded`). This can
  be done in one way, and the words found are those (`worded_iff`). Blanks at the ends of a text do not count
  (`words_trim`), and words joined by spaces are found again (`words_join`). Where every run of blanks is one space,
  what trimming leaves are the words with spaces between them (`squish_eq`), and the runs of blanks are the matches of
  an expression (`replaceAll_blankRun`).
    1. `Filter.squish_words` — squishing writes the words of a text with one space between them, so that it can be
       done twice, and before or after trimming, and forgets nothing but the blanks.
-/
namespace Harvest
namespace Text

/-- A text and its words: each is a run of characters that are not blank, with nothing but blanks in front of it,
and with the end of the text or a blank behind it. -/
inductive Worded : List Char → List (List Char) → Prop where
  | blank {b} : (∀ c ∈ b, isBlank c = true) → Worded b []
  | word {b w s ws} : (∀ c ∈ b, isBlank c = true) → w ≠ [] → (∀ c ∈ w, isBlank c = false) →
      (∀ c ∈ s.head?, isBlank c = true) → Worded s ws → Worded (b ++ (w ++ s)) (w :: ws)

variable {b w s : List Char} {ws : List (List Char)}

/-! ## Finding words -/

theorem words_blank_append (hb : ∀ c ∈ b, isBlank c = true) (s : List Char) : words (b ++ s) = words s := by
  induction b with
  | nil => rfl
  | cons c b ih =>
    have hc : isBlank c = true := hb c List.mem_cons_self
    rw [List.cons_append, words, wordsFrom, if_pos hc]
    exact ih fun d hd => hb d (List.mem_cons_of_mem c hd)

theorem wordsFrom_append (hw : ∀ c ∈ w, isBlank c = false) (word s : List Char) :
    wordsFrom word (w ++ s) = wordsFrom (w.reverse ++ word) s := by
  induction w generalizing word with
  | nil => rfl
  | cons c w ih =>
    have hc : ¬isBlank c = true := by simp [hw c List.mem_cons_self]
    rw [List.cons_append, wordsFrom, if_neg hc, ih fun d hd => hw d (List.mem_cons_of_mem c hd)]
    simp

/-- A word ends where the text ends or a blank comes. -/
theorem words_word_append (hne : w ≠ []) (hw : ∀ c ∈ w, isBlank c = false) (hs : ∀ c ∈ s.head?, isBlank c = true) :
    words (w ++ s) = w :: words s := by
  rw [words, wordsFrom_append hw, List.append_nil]
  cases s with
  | nil => simp [wordsFrom, words, hne]
  | cons c s =>
    have hc : isBlank c = true := hs c rfl
    simp [wordsFrom, words, hne, hc]

theorem Worded.words_eq (h : Worded s ws) : words s = ws := by
  induction h with
  | blank hb => simpa [words, wordsFrom] using words_blank_append hb []
  | word hb hne hw hs _ ih => rw [words_blank_append hb, words_word_append hne hw hs, ih]

theorem Worded.blank_cons {c : Char} (hc : isBlank c = true) (h : Worded s ws) : Worded (c :: s) ws := by
  cases h with
  | blank hb => exact .blank (List.forall_mem_cons.mpr ⟨hc, hb⟩)
  | word hb hne hw hs h => exact .word (List.forall_mem_cons.mpr ⟨hc, hb⟩) hne hw hs h

theorem Worded.front (hne : w ≠ []) (hw : ∀ c ∈ w, isBlank c = false) (hs : ∀ c ∈ s.head?, isBlank c = true)
    (h : Worded s ws) : Worded (w ++ s) (w :: ws) :=
  .word (b := []) (List.forall_mem_nil _) hne hw hs h

/-- A character that is not blank is a new word, or one more at the front of the first word. -/
theorem Worded.exists_cons {c : Char} (hc : isBlank c = false) (h : Worded s ws) : ∃ ws', Worded (c :: s) ws' := by
  have hone : ∀ d ∈ [c], isBlank d = false := by simpa using hc
  cases h with
  | blank hb =>
    have hhead : ∀ d ∈ s.head?, isBlank d = true := fun d hd => hb d (List.mem_of_head? hd)
    exact ⟨[[c]], .front (List.cons_ne_nil c []) hone hhead (.blank hb)⟩
  | @word b w s ws hb hne hw hs h =>
    cases b with
    | nil => exact ⟨(c :: w) :: ws, .front (List.cons_ne_nil c w) (List.forall_mem_cons.mpr ⟨hc, hw⟩) hs h⟩
    | cons d b =>
      have hhead : ∀ a ∈ (d :: b ++ (w ++ s)).head?, isBlank a = true := by simpa using hb d List.mem_cons_self
      exact ⟨[c] :: w :: ws, .front (List.cons_ne_nil c []) hone hhead (.word hb hne hw hs h)⟩

theorem exists_worded (s : List Char) : ∃ ws, Worded s ws := by
  induction s with
  | nil => exact ⟨[], .blank (List.forall_mem_nil _)⟩
  | cons c s ih =>
    obtain ⟨ws, h⟩ := ih
    cases hc : isBlank c with
    | true => exact ⟨ws, h.blank_cons hc⟩
    | false => exact h.exists_cons hc

/-- The words that are found are those of the text, and there are no others. -/
theorem worded_iff : Worded s ws ↔ words s = ws := by
  refine ⟨Worded.words_eq, ?_⟩
  rintro rfl
  obtain ⟨ws, h⟩ := exists_worded s
  rwa [h.words_eq]

example : words "\u001ca\u001d \u2003b".toList = [['a'], ['b']] := by decide

theorem worded_words (s : List Char) : Worded s (words s) := worded_iff.mpr rfl

/-! ## Words with spaces between them -/

theorem Worded.not_blank (h : Worded s ws) (hmem : w ∈ ws) : w ≠ [] ∧ ∀ c ∈ w, isBlank c = false := by
  induction h with
  | blank => cases hmem
  | word _ hne hw _ _ ih =>
    rcases List.mem_cons.mp hmem with rfl | hmem
    · exact ⟨hne, hw⟩
    · exact ih hmem

/-- Words that are joined are found again. -/
theorem words_join (hws : ∀ w ∈ ws, w ≠ [] ∧ ∀ c ∈ w, isBlank c = false) : words (join [' '] ws) = ws := by
  induction ws with
  | nil => rfl
  | cons w ws ih =>
    obtain ⟨⟨hne, hw⟩, hrest⟩ := List.forall_mem_cons.mp hws
    cases ws with
    | nil =>
      rw [join]
      simpa [words, wordsFrom] using words_word_append (s := []) hne hw (by simp)
    | cons v ws =>
      have hhead : ∀ c ∈ ([' '] ++ join [' '] (v :: ws)).head?, isBlank c = true := by simpa using space_blank
      rw [join, List.append_assoc, words_word_append hne hw hhead, words_blank_append space_blank, ih hrest]

/-- Blanks behind a text do not count. By induction on the way the text is taken apart. -/
theorem words_append_blank (hb : ∀ c ∈ b, isBlank c = true) (s : List Char) : words (s ++ b) = words s := by
  have hworded := worded_words s
  generalize words s = ws at hworded
  rw [← worded_iff]
  induction hworded with
  | blank hs => exact .blank (List.forall_mem_append.mpr ⟨hs, hb⟩)
  | @word a w s ws ha hne hw hs _ ih =>
    rw [List.append_assoc, List.append_assoc]
    refine .word ha hne hw ?_ ih
    cases s with
    | nil => exact fun c hc => hb c (List.mem_of_head? hc)
    | cons d s => exact hs

theorem words_trim (s : List Char) : words (trim s) = words s := by
  obtain ⟨a, ha, hleft⟩ := exists_trimLeft s
  obtain ⟨b, hb, hright⟩ := exists_trimRight (trimLeft s)
  calc words (trim s) = words (trim s ++ b) := (words_append_blank hb _).symm
    _ = words (trimLeft s) := by rw [trim, ← hright]
    _ = words s := by rw [← words_blank_append ha (trimLeft s), ← hleft]

/-! ## Squishing -/

theorem collapseAfter_blank_append (hb : ∀ c ∈ b, isBlank c = true) (s : List Char) :
    collapseAfter true (b ++ s) = collapseAfter true s := by
  induction b with
  | nil => rfl
  | cons c b ih =>
    have hc : isBlank c = true := hb c List.mem_cons_self
    rw [List.cons_append, collapseAfter, if_pos hc, if_pos rfl, ih fun d hd => hb d (List.mem_cons_of_mem c hd)]

theorem collapse_word_append (hw : ∀ c ∈ w, isBlank c = false) (s : List Char) :
    collapse (w ++ s) = w ++ collapse s := by
  induction w with
  | nil => rfl
  | cons c w ih =>
    have hc : ¬isBlank c = true := by simp [hw c List.mem_cons_self]
    rw [List.cons_append, collapse, collapseAfter, if_neg hc]
    exact congrArg (c :: ·) (ih fun d hd => hw d (List.mem_cons_of_mem c hd))

/-- A run of blanks is one space, whatever it is. -/
theorem collapse_blank_cons {c : Char} (hc : isBlank c = true) (s : List Char) :
    collapse (c :: s) = ' ' :: collapseAfter true s := by
  rw [collapse, collapseAfter, if_pos hc, if_neg Bool.false_ne_true]

/-- Where no blank comes first, it does not matter what was before. -/
theorem collapseAfter_of_stops (hs : Regex.Stops isBlank s) (after : Bool) : collapseAfter after s = collapse s := by
  cases s with
  | nil => rfl
  | cons c s => simp [collapse, collapseAfter, hs c s rfl]

theorem trimLeft_collapse (s : List Char) : trimLeft (collapse s) = trimLeft (collapseAfter true s) := by
  cases s with
  | nil => rfl
  | cons c s =>
    cases hc : isBlank c with
    | false => rw [collapseAfter_of_stops (.cons hc s)]
    | true =>
      rw [collapse_blank_cons hc, collapseAfter, if_pos hc, if_pos rfl]
      exact trimLeft_append space_blank (collapseAfter true s)

theorem join_cons (w : List Char) (ws : List (List Char)) :
    join [' '] (w :: ws) = w ++ ws.flatMap (' ' :: ·) := by
  induction ws generalizing w with
  | nil => simp [join]
  | cons v ws ih => rw [join, ih, List.flatMap_cons, List.append_assoc, List.singleton_append, List.cons_append]

/-- Where a space stands in front and every run of blanks is one space, each word has a space in front of it. -/
theorem Worded.trimRight_collapseAfter (h : Worded s ws) :
    trimRight (' ' :: collapseAfter true s) = ws.flatMap (' ' :: ·) := by
  induction h with
  | @blank b hb =>
    have hnil := collapseAfter_blank_append hb []
    rw [List.append_nil] at hnil
    rw [hnil]
    rfl
  | @word b w s ws hb hne hw hs h ih =>
    have hstops : Regex.Stops isBlank (w ++ s) := by
      intro c r hc
      have hhead : c ∈ w.head? := by rw [← List.head?_append_of_ne_nil w hne, hc, List.head?_cons, Option.mem_some]
      exact hw c (List.mem_of_head? hhead)
    have hword : trimRight (' ' :: w) = ' ' :: w := by
      rw [trimRight_eq_self]
      intro _
      rw [List.getLast_cons hne]
      exact hw _ (List.getLast_mem hne)
    have hrest : trimRight (collapse s) = ws.flatMap (' ' :: ·) := by
      cases s with
      | nil =>
        rw [← h.words_eq]
        rfl
      | cons c s =>
        have hc : isBlank c = true := hs c rfl
        rw [collapseAfter, if_pos hc, if_pos rfl] at ih
        rw [collapse_blank_cons hc, ih]
    calc trimRight (' ' :: collapseAfter true (b ++ (w ++ s)))
        = trimRight ((' ' :: w) ++ collapse s) := by
          rw [collapseAfter_blank_append hb, collapseAfter_of_stops hstops, collapse_word_append hw, List.cons_append]
      _ = (' ' :: w) ++ ws.flatMap (' ' :: ·) := by rw [trimRight_append_trimmed hword, hrest]
      _ = (w :: ws).flatMap (' ' :: ·) := by rw [List.flatMap_cons]

/-- Squishing is joining the words. -/
theorem squish_eq (s : List Char) : squish s = join [' '] (words s) := by
  have hfront : squish s = trimLeft ((words s).flatMap (' ' :: ·)) := by
    rw [← (worded_words s).trimRight_collapseAfter, trimLeft_trimRight, squish, trim, trimLeft_collapse]
    exact (trim_append_left space_blank _).symm
  rw [hfront]
  cases hws : words s with
  | nil => rfl
  | cons w ws =>
    obtain ⟨hne, hw⟩ := (worded_words s).not_blank (show w ∈ words s by simp [hws])
    rw [join_cons, List.flatMap_cons]
    calc trimLeft ([' '] ++ (w ++ ws.flatMap (' ' :: ·))) = trimLeft (w ++ ws.flatMap (' ' :: ·)) :=
          trimLeft_append space_blank _
      _ = w ++ ws.flatMap (' ' :: ·) := trimLeft_append_eq_self hne (trimLeft_of_trim (trim_of_not_blank hw)) _

theorem words_squish (s : List Char) : words (squish s) = words s := by
  rw [squish_eq, words_join fun w hw => (worded_words s).not_blank hw]

theorem squish_squish (s : List Char) : squish (squish s) = squish s := by
  rw [squish_eq, words_squish, ← squish_eq]

theorem squish_trim (s : List Char) : squish (trim s) = squish s := by rw [squish_eq, words_trim, ← squish_eq]

theorem trim_squish (s : List Char) : trim (squish s) = squish s := trim_trim (collapse s)

theorem squish_eq_iff {t : List Char} : squish s = squish t ↔ words s = words t := by
  constructor
  · intro h
    rw [← words_squish s, h, words_squish]
  · intro h
    rw [squish_eq, squish_eq, h]

end Text

/-! ## Runs of blanks as matches -/

namespace Regex
open Text

/-- A text from a point on, with `new` in place of the matches; `fuel` bounds their number. -/
def Expression.replaceFrom (e : Expression) (new : List Char) : Nat → Bool → Place → List Char
  | 0, _, p => p.rest
  | fuel + 1, empty, p =>
    match e.search? empty p.before p.rest with
    | none => p.rest
    | some (a, b) => p.between a ++ new ++ e.replaceFrom new fuel (!b.sameAs a) b

/-- A text with `new` in place of the matches, found from the left as for `split`. -/
def Expression.replaceAll (e : Expression) (new s : List Char) : List Char :=
  e.replaceFrom new (2 * s.length + 2) true (Place.front s)

/-- The expression of runs of blanks. -/
def blankRun : Expression := ⟨"\\s+", .many 1 none .greedy (.set false [.category .blank false false] false), 0⟩

theorem read_blankRun : Expression.read "\\s+" = .ok blankRun := by decide +kernel

variable {s u w r before : List Char} {taken : List (Nat × List Char)}

/-- A run of blanks is matched as a whole. -/
theorem matchHere_blankRun (hne : w ≠ []) (hw : ∀ c ∈ w, isBlank c = true) (hr : Stops isBlank r) :
    blankRun.matchHere? true ⟨before, w ++ r, taken⟩ = some ⟨w.reverse ++ before, r, []⟩ :=
  run_many run_blank hw hr (List.length_pos_of_ne_nil hne) (.inl rfl)

theorem matchHere_blankRun_eq_none (hs : Stops isBlank s) : blankRun.matchHere? true ⟨before, s, taken⟩ = none :=
  run_many_short run_blank (List.forall_mem_nil _) hs Nat.zero_lt_one

theorem search_blankRun (hu : ∀ c ∈ u, isBlank c = false) (hne : w ≠ []) (hw : ∀ c ∈ w, isBlank c = true)
    (hr : Stops isBlank r) :
    blankRun.search? true before (u ++ (w ++ r)) =
      some (⟨u.reverse ++ before, w ++ r, []⟩, ⟨w.reverse ++ (u.reverse ++ before), r, []⟩) := by
  induction u generalizing before with
  | nil =>
    obtain ⟨c, w, rfl⟩ := List.exists_cons_of_ne_nil hne
    have hmatch : blankRun.matchHere? true ⟨before, c :: (w ++ r), []⟩ = _ := matchHere_blankRun hne hw hr
    rw [List.nil_append, List.cons_append, Expression.search?, hmatch]
    rfl
  | cons c u ih =>
    obtain ⟨hc, hu⟩ := List.forall_mem_cons.mp hu
    rw [List.cons_append, Expression.search?, matchHere_blankRun_eq_none (.cons hc _), ih hu]
    simp

theorem search_blankRun_eq_none (hs : ∀ c ∈ s, isBlank c = false) : blankRun.search? true before s = none := by
  induction s generalizing before with
  | nil => rw [Expression.search?, matchHere_blankRun_eq_none (.nil _), Option.map_none]
  | cons c s ih =>
    obtain ⟨hc, hs⟩ := List.forall_mem_cons.mp hs
    rw [Expression.search?, matchHere_blankRun_eq_none (.cons hc s)]
    exact ih hs

/-- A text without blanks, or the first run of blanks in it. -/
theorem blankRun_cases (s : List Char) : (∀ c ∈ s, isBlank c = false) ∨
    ∃ u c w r, s = u ++ (c :: w ++ r) ∧ (∀ d ∈ u, isBlank d = false) ∧ (∀ d ∈ c :: w, isBlank d = true) ∧
      Stops isBlank r := by
  have hu : ∀ d ∈ s.takeWhile (!isBlank ·), isBlank d = false := fun d hd => by simpa using List.mem_takeWhile_imp hd
  have hs : s.takeWhile (!isBlank ·) ++ s.dropWhile (!isBlank ·) = s := List.takeWhile_append_dropWhile
  cases ht : s.dropWhile (!isBlank ·) with
  | nil =>
    rw [ht, List.append_nil] at hs
    exact .inl (hs ▸ hu)
  | cons c t =>
    have hc : isBlank c = true := by simpa using Stops.dropWhile (!isBlank ·) s c t ht
    obtain ⟨w, hw, hr⟩ := exists_trimLeft t
    refine .inr ⟨_, c, w, trimLeft t, ?_, hu, List.forall_mem_cons.mpr ⟨hc, hw⟩, Stops.dropWhile isBlank t⟩
    rw [List.cons_append, ← hr, ← ht, hs]

/-- Putting a space for every run of blanks, by induction on the number of matches allowed. -/
theorem replaceFrom_blankRun (fuel : Nat) (s before : List Char) (taken : List (Nat × List Char))
    (hfuel : s.length < fuel) : blankRun.replaceFrom [' '] fuel true ⟨before, s, taken⟩ = collapse s := by
  induction fuel generalizing s before taken with
  | zero => omega
  | succ fuel ih =>
    rcases blankRun_cases s with hs | ⟨u, c, w, r, rfl, hu, hw, hr⟩
    · have hcollapse := collapse_word_append hs []
      rw [List.append_nil] at hcollapse
      rw [Expression.replaceFrom, search_blankRun_eq_none hs, hcollapse]
      exact (List.append_nil s).symm
    · obtain ⟨hc, hw'⟩ := List.forall_mem_cons.mp hw
      have hbetween : (⟨before, u ++ (c :: w ++ r), taken⟩ : Place).between ⟨u.reverse ++ before, c :: w ++ r, []⟩ = u := by
        simp [Place.between]
      have hsame : ∀ b, (⟨b, r, []⟩ : Place).sameAs ⟨u.reverse ++ before, c :: w ++ r, []⟩ = false := by
        intro b
        simp only [Place.sameAs, List.length_append, List.length_cons, beq_eq_false_iff_ne]
        omega
      have hlength : r.length < fuel := by
        simp only [List.length_append, List.length_cons] at hfuel
        omega
      rw [Expression.replaceFrom, search_blankRun hu (List.cons_ne_nil c w) hw hr]
      simp only [hbetween, hsame, Bool.not_false]
      rw [ih r _ [] hlength, collapse_word_append hu, List.cons_append, collapse_blank_cons hc,
        collapseAfter_blank_append hw', collapseAfter_of_stops hr, List.append_assoc, List.singleton_append]

/-- Collapsing a text is putting a space for every match of the expression. -/
theorem replaceAll_blankRun (s : List Char) : blankRun.replaceAll [' '] s = collapse s :=
  replaceFrom_blankRun _ s [] [] (by omega)

end Regex

namespace Filter
open Text Regex

theorem run_squish (s : List Char) : squish.run (textValue s) [] = .ok (textValue (Text.squish s)) := by
  have hrun : squish.run (textValue s) [] = .ok (textValue (Text.squish (String.ofList s).toList)) := rfl
  rw [hrun, String.toList_ofList]

theorem run_trim (s : List Char) : trim.run (textValue s) [] = .ok (textValue (Text.trim s)) := by
  have hrun : trim.run (textValue s) [] = .ok (textValue (Text.trim (String.ofList s).toList)) := rfl
  rw [hrun, String.toList_ofList]

/-- Squishing a text writes its words with one space between them. That is what trimming leaves of it with a space put
for every match of the expression of blanks. So squishing again changes nothing, it does not matter whether a text is
trimmed before it, or after it, and two texts are squished to the same exactly when they have the same words. -/
theorem squish_words (v : String) :
    (∀ ws, Worded v.toList ws ↔ ws = words v.toList) ∧
      squish.run (.text v) [] = .ok (textValue (join [' '] (words v.toList))) ∧
      (∃ e, Expression.read "\\s+" = .ok e ∧
        squish.run (.text v) [] = .ok (textValue (Text.trim (e.replaceAll [' '] v.toList)))) ∧
      (squish.run (.text v) [] >>= fun w => squish.run w []) = squish.run (.text v) [] ∧
      (trim.run (.text v) [] >>= fun w => squish.run w []) = squish.run (.text v) [] ∧
      (squish.run (.text v) [] >>= fun w => trim.run w []) = squish.run (.text v) [] ∧
      ∀ w : String, squish.run (.text v) [] = squish.run (.text w) [] ↔ words v.toList = words w.toList := by
  have htext : ∀ s : String, Value.text s = textValue s.toList := by
    intro s
    rw [textValue, String.ofList_toList]
  simp only [htext, run_squish, run_trim, ok_bind]
  refine ⟨fun ws => worded_iff.trans eq_comm, ?_, ?_, ?_, ?_, ?_, fun w => ?_⟩
  · rw [squish_eq]
  · exact ⟨blankRun, read_blankRun, by rw [replaceAll_blankRun, Text.squish]⟩
  · rw [squish_squish]
  · rw [squish_trim]
  · rw [trim_squish]
  · rw [← squish_eq_iff]
    simp [textValue, String.ofList_inj]

end Filter
end Harvest
