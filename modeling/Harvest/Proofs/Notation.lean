import Harvest.Proofs.Entries
import Harvest.Proofs.Scalar
import Harvest.Proofs.Tree

/-
  What is written in JSON is read again.

  A tree is written as a text that its reader takes up to its end, whatever stands behind it that belongs to no number
  (`value_written`, by induction on the tree). Lists and records are written alike: an opening bracket, the first item, and
  what stands `behind` an item. The reader of items takes as many calls as there are characters at most, which is what the
  bound that `Json.read` gives allows.
    1. `read_write` — reading what is written gives the tree back, for every indentation.
-/
namespace Harvest.Json
open Text Value

/-! ## Blanks -/

theorem skip_append {w : List Char} (hw : ∀ c ∈ w, isSpace c = true) (s : List Char) : skip (w ++ s) = skip s :=
  List.dropWhile_append_of_pos hw

theorem skip_cons {c : Char} (hc : isSpace c = false) (s : List Char) : skip (c :: s) = c :: s := by
  rw [skip, List.dropWhile_cons, if_neg (by simp [hc])]

theorem isSpace_lineStart (indent : Option Nat) (depth : Nat) : ∀ c ∈ lineStart indent depth, isSpace c = true := by
  cases indent with
  | none => simp [lineStart]
  | some n =>
    refine List.forall_mem_cons.mpr ⟨by decide, ?_⟩
    intro c hc
    rw [List.eq_of_mem_replicate hc]
    decide

/-! ## Items between brackets -/

/-- What stands behind an item at a depth of one more: the items that follow, and the closing bracket. -/
def behind (indent : Option Nat) (depth : Nat) (closing : Char) : List (List Char) → List Char
  | [] => lineStart indent depth ++ [closing]
  | t :: ts => comma indent ++ (lineStart indent (depth + 1) ++ (t ++ behind indent depth closing ts))

section
variable {indent : Option Nat} {depth : Nat} {opening closing : Char} {t rest : List Char} {ts : List (List Char)}

theorem bracketed_cons (t : List Char) (ts : List (List Char)) :
    bracketed indent depth opening closing (t :: ts)
      = opening :: (lineStart indent (depth + 1) ++ (t ++ behind indent depth closing ts)) := by
  have hjoin : ∀ (t : List Char) (ts : List (List Char)),
      join (comma indent) ((t :: ts).map (lineStart indent (depth + 1) ++ ·)) ++ (lineStart indent depth ++ [closing])
        = lineStart indent (depth + 1) ++ (t ++ behind indent depth closing ts) := by
    intro t ts
    induction ts generalizing t with
    | nil => simp [join, behind]
    | cons u ts ih =>
      have hu := ih u
      simp only [List.map_cons, join, behind, List.append_assoc] at hu ⊢
      rw [hu]
  rw [bracketed, List.append_assoc, hjoin]
  simp

/-- A bracket that closes a list or a mapping. -/
def IsClosing (c : Char) : Prop := c = ']' ∨ c = '\x7d'

/-- What stands behind an item belongs to no number. -/
theorem ends_behind (h : IsClosing closing) (ts : List (List Char)) (rest : List Char) :
    Ends (behind indent depth closing ts ++ rest) := by
  intro c hc
  cases ts with
  | nil =>
    cases indent with
    | none =>
      obtain rfl : closing = c := by simpa [behind, lineStart] using hc
      rcases h with rfl | rfl <;> simp
    | some n =>
      obtain rfl : '\n' = c := by simpa [behind, lineStart] using hc
      simp
  | cons t ts =>
    obtain rfl : ',' = c := by cases indent <;> simpa [behind, comma] using hc
    simp

/-- Behind the last item the bracket is met. -/
theorem skip_behind_nil (h : IsClosing closing) (rest : List Char) :
    skip (behind indent depth closing [] ++ rest) = closing :: rest := by
  rw [behind, List.append_assoc, skip_append (isSpace_lineStart indent depth), List.singleton_append]
  refine skip_cons ?_ rest
  rcases h with rfl | rfl <;> decide

/-- Behind any other item a comma is met, and behind that the next item, which begins with no blank. -/
theorem skip_behind_cons (indent : Option Nat) (depth : Nat) (closing : Char) {c : Char} {s : List Char}
    (ht : t = c :: s) (hc : isSpace c = false) (ts : List (List Char)) (rest : List Char) :
    ∃ r, skip (behind indent depth closing (t :: ts) ++ rest) = ',' :: r ∧
      skip r = t ++ (behind indent depth closing ts ++ rest) := by
  have hline := isSpace_lineStart indent (depth + 1)
  have hrest : behind indent depth closing (t :: ts) ++ rest
      = comma indent ++ (lineStart indent (depth + 1) ++ (t ++ (behind indent depth closing ts ++ rest))) := by
    simp only [behind, List.append_assoc]
  have hitem : skip (t ++ (behind indent depth closing ts ++ rest)) = t ++ (behind indent depth closing ts ++ rest) := by
    rw [ht, List.cons_append, skip_cons hc]
  rw [hrest]
  cases indent with
  | none =>
    -- on one line a single blank stands behind the comma
    have hblank : ∀ c ∈ [' '], isSpace c = true := List.forall_mem_singleton.mpr (by decide)
    exact ⟨_, rfl, (skip_append hblank _).trans hitem⟩
  | some n => exact ⟨_, rfl, (skip_append hline _).trans hitem⟩

theorem length_behind_pos (indent : Option Nat) (depth : Nat) (closing : Char) (ts : List (List Char)) :
    0 < (behind indent depth closing ts).length := by
  cases ts <;> cases indent <;> simp [behind, comma]

theorem length_behind_cons (indent : Option Nat) (depth : Nat) (closing : Char) (t : List Char) (ts : List (List Char)) :
    (t ++ behind indent depth closing ts).length < (behind indent depth closing (t :: ts)).length := by
  have hcomma : 0 < (comma indent).length := by cases indent <;> simp [comma]
  simp only [behind, List.length_append]
  omega

end

/-! ## Trees -/

section
variable {indent : Option Nat} {depth : Nat}

/-- What a tree is written as begins with no blank and with no bracket that closes a list. -/
theorem writeAt_head {v : Value} (hv : v.IsTree) (indent : Option Nat) (depth : Nat) :
    ∃ c s, writeAt indent depth v = c :: s ∧ isSpace c = false ∧ c ≠ ']' ∧ c ≠ '\ufeff' := by
  cases hv with
  | null => exact ⟨'n', _, rfl, by decide, by decide, by decide⟩
  | bool b =>
    cases b
    · exact ⟨'f', _, rfl, by decide, by decide, by decide⟩
    · exact ⟨'t', _, rfl, by decide, by decide, by decide⟩
  | @int i fits =>
    rw [writeAt, toList_toString]
    unfold signOf
    split
    · exact ⟨'-', _, rfl, by decide, by decide, by decide⟩
    · obtain ⟨c, s, hcs⟩ := List.exists_cons_of_ne_nil (Nat.toDigits_ne_nil (n := i.natAbs) (b := 10))
      obtain ⟨d, hd, rfl⟩ := exists_digit (n := i.natAbs) (c := c) (by simp [hcs])
      have hkind : ∀ d < 10, isSpace d.digitChar = false ∧ d.digitChar ≠ ']' ∧ d.digitChar ≠ '\ufeff' := by decide
      exact ⟨_, s, hcs, hkind d hd⟩
  | text s => exact ⟨'"', _, rfl, by decide, by decide, by decide⟩
  | @list vs members =>
    rw [writeAt]
    cases vs with
    | nil => exact ⟨'[', _, rfl, by decide, by decide, by decide⟩
    | cons v vs => exact ⟨'[', _, rfl, by decide, by decide, by decide⟩
  | @record r distinct members =>
    rw [Value.ofRecord, writeAt]
    cases r with
    | nil => exact ⟨'\x7b', _, rfl, by decide, by decide, by decide⟩
    | cons f r => exact ⟨'\x7b', _, rfl, by decide, by decide, by decide⟩

/-- Whether a text is read as a value up to its end, whatever stands behind it that belongs to no number, with as many
calls as it has characters. -/
def Reads (t : List Char) (v : Value) : Prop :=
  ∀ n rest, t.length ≤ n → Ends rest → value n (t ++ rest) = .ok (v, rest)

theorem value_scalar {c : Char} (hq : c ≠ '"') (hbrace : c ≠ '\x7b') (hbracket : c ≠ '[') (n : Nat) (s : List Char) :
    value n (c :: s) = scalar (c :: s) := by
  rw [value]
  all_goals simp_all

theorem reads_null : Reads "null".toList .null := by
  intro n rest _ _
  exact value_scalar (by decide) (by decide) (by decide) n _

theorem reads_bool (b : Bool) : Reads (writeBool b) (.bool b) := by
  intro n rest _ _
  cases b with
  | false => exact value_scalar (by decide) (by decide) (by decide) n _
  | true => exact value_scalar (by decide) (by decide) (by decide) n _

theorem reads_int {i : Int} (fits : i.natAbs < 10 ^ Numeral.maxDigits) : Reads (toString i).toList (.int i) := by
  intro n rest _ hrest
  have hnumber := number_written fits hrest
  obtain ⟨c, s, hcs⟩ := List.exists_cons_of_ne_nil (Nat.toDigits_ne_nil (n := i.natAbs) (b := 10))
  obtain ⟨d, hd, rfl⟩ := exists_digit (n := i.natAbs) (c := c) (by simp [hcs])
  have hkind : ∀ d < 10, d.digitChar ≠ '"' ∧ d.digitChar ≠ '\x7b' ∧ d.digitChar ≠ '[' := by decide
  obtain ⟨hq, hbrace, hbracket⟩ := hkind d hd
  rw [toList_toString, hcs] at hnumber ⊢
  unfold signOf at hnumber ⊢
  split at hnumber
  · next hi =>
    rw [if_pos hi, ← hnumber]
    have hword : word? ('-' :: d.digitChar :: (s ++ rest)) = none := by
      simp [word?, words, dropText?]
    refine (value_scalar (by decide) (by decide) (by decide) n _).trans ?_
    rw [scalar]
    exact hword ▸ rfl
  · next hi =>
    rw [if_neg hi, ← hnumber]
    have hword : word? (d.digitChar :: (s ++ rest)) = none := by
      have hf : d ≠ 15 := by omega
      simp [word?, words, dropText?, hf]
    refine (value_scalar hq hbrace hbracket n _).trans ?_
    rw [scalar]
    exact hword ▸ rfl

theorem reads_text (s : String) : Reads (writeString s.toList) (.text s) := by
  intro n rest hn _
  obtain ⟨m, rfl⟩ := Nat.exists_eq_succ_of_ne_zero (Nat.pos_iff_ne_zero.mp (Nat.lt_of_lt_of_le (by simp [writeString]) hn))
  have hstring := string_written s rest
  rw [writeString, List.cons_append, value, List.append_assoc, List.singleton_append, hstring]
  rfl

/-- The items of a list, from the first on. -/
theorem items_written {vs : List Value} {v : Value}
    (h : ∀ w ∈ v :: vs, w.IsTree ∧ Reads (writeAt indent (depth + 1) w) w) {n : Nat} (rest : List Char)
    (hn : (writeAt indent (depth + 1) v ++ behind indent depth ']' (writeItems indent (depth + 1) vs)).length ≤ n) :
    items n (writeAt indent (depth + 1) v ++ (behind indent depth ']' (writeItems indent (depth + 1) vs) ++ rest))
      = .ok (v :: vs, rest) := by
  have hclosing : IsClosing ']' := .inl rfl
  induction vs generalizing v n with
  | nil =>
    have hpos := length_behind_pos indent depth ']' []
    simp only [List.length_append, writeItems] at hn
    obtain ⟨m, rfl⟩ : ∃ m, n = m + 1 := Nat.exists_eq_add_one.mpr (by omega)
    have hv := (h v List.mem_cons_self).2 m (behind indent depth ']' [] ++ rest) (by omega)
      (ends_behind hclosing [] rest)
    rw [items, writeItems, hv, ok_bind]
    simp only [skip_behind_nil hclosing]
  | cons u vs ih =>
    obtain ⟨hhead, htail⟩ := List.forall_mem_cons.mp h
    obtain ⟨c, s, hcs, hspace, -, -⟩ := writeAt_head (htail u List.mem_cons_self).1 indent (depth + 1)
    have hlength := length_behind_cons indent depth ']' (writeAt indent (depth + 1) u)
      (writeItems indent (depth + 1) vs)
    rw [List.length_append, writeItems] at hn
    obtain ⟨m, rfl⟩ : ∃ m, n = m + 1 := Nat.exists_eq_add_one.mpr (by omega)
    have hv := hhead.2 m (behind indent depth ']' (writeItems indent (depth + 1) (u :: vs)) ++ rest) (by omega)
      (ends_behind hclosing _ rest)
    have hu := ih htail (n := m) (by omega)
    obtain ⟨r, hskip, hnext⟩ := skip_behind_cons indent depth ']' hcs hspace (writeItems indent (depth + 1) vs) rest
    rw [items, hv, ok_bind, writeItems]
    simp only [hskip, hnext, hu, ok_bind]

/-- A field of a record as it is written. -/
def writeField (indent : Option Nat) (depth : Nat) (f : String × Value) : List Char :=
  writeString f.1.toList ++ ':' :: ' ' :: writeAt indent depth f.2

theorem writeEntries_entriesOf (indent : Option Nat) (depth : Nat) (r : Value.Record) :
    writeEntries indent depth (entriesOf r) = r.map (writeField indent depth) := by
  induction r with
  | nil => rfl
  | cons f r ih =>
    have hcons : entriesOf (f :: r) = (.text f.1, f.2) :: entriesOf r := rfl
    rw [hcons, writeEntries, ih, List.map_cons]
    rfl

/-- Among different names, that of a field is none of those before it. -/
theorem not_mem_keys {q r : Value.Record} {f : String × Value} (h : (q ++ f :: r).keys.Nodup) : f.1 ∉ q.keys := by
  rw [Value.Record.keys, List.map_append, List.nodup_append] at h
  intro hf
  exact h.2.2 f.1 hf f.1 List.mem_cons_self rfl

theorem length_writeAt_lt (indent : Option Nat) (depth : Nat) (f : String × Value) :
    (writeAt indent depth f.2).length < (writeField indent depth f).length := by
  simp only [writeField, List.length_append, List.length_cons]
  omega

/-- A field is read up to its end and put behind those read before; the brace or the comma behind it says whether more
fields follow. -/
theorem entries_step {q : Value.Record} {f : String × Value} (hkey : f.1 ∉ q.keys)
    (hf : f.2.IsTree ∧ Reads (writeAt indent depth f.2) f.2) {m : Nat} (hm : (writeAt indent depth f.2).length ≤ m)
    {rest : List Char} (hrest : Ends rest) :
    (∀ r, skip rest = '\x7d' :: r →
      entries (m + 1) (entriesOf q) (writeField indent depth f ++ rest) = .ok (entriesOf (q ++ [f]), r)) ∧
    (∀ r, skip rest = ',' :: r →
      entries (m + 1) (entriesOf q) (writeField indent depth f ++ rest) = entries m (entriesOf (q ++ [f])) (skip r)) := by
  obtain ⟨htree, hread⟩ := hf
  obtain ⟨c, s, hcs, hspace, -, -⟩ := writeAt_head htree indent depth
  have htext : writeField indent depth f ++ rest
      = '"' :: (f.1.toList.flatMap writeChar ++ '"' :: ':' :: ' ' :: (writeAt indent depth f.2 ++ rest)) := by
    simp [writeField, writeString]
  have hcolon : afterColon (':' :: ' ' :: (writeAt indent depth f.2 ++ rest))
      = .ok ((), writeAt indent depth f.2 ++ rest) := by
    have hblank : ∀ c ∈ [' '], isSpace c = true := List.forall_mem_singleton.mpr (by decide)
    have hskip : skip (' ' :: (writeAt indent depth f.2 ++ rest)) = writeAt indent depth f.2 ++ rest := by
      rw [hcs, List.cons_append]
      exact (skip_append hblank _).trans (skip_cons hspace _)
    rw [afterColon, skip_cons (by decide)]
    simp only [hskip]
  rw [htext, entries, string_written, ok_bind]
  simp only [hcolon, hread m rest hm hrest, ok_bind, put_entriesOf hkey]
  constructor
  · intro r hbrace
    simp only [hbrace]
  · intro r hcomma
    simp only [hcomma]

/-- The fields of a record, from one on, put behind those read before. -/
theorem entries_written {r : Value.Record} {f : String × Value} (q : Value.Record)
    (h : ∀ g ∈ f :: r, g.2.IsTree ∧ Reads (writeAt indent (depth + 1) g.2) g.2)
    (hdistinct : (q ++ f :: r).keys.Nodup) {n : Nat} (rest : List Char)
    (hn : (writeField indent (depth + 1) f
      ++ behind indent depth '\x7d' (r.map (writeField indent (depth + 1)))).length ≤ n) :
    entries n (entriesOf q) (writeField indent (depth + 1) f
        ++ (behind indent depth '\x7d' (r.map (writeField indent (depth + 1))) ++ rest))
      = .ok (entriesOf (q ++ f :: r), rest) := by
  have hclosing : IsClosing '\x7d' := .inr rfl
  induction r generalizing f q n with
  | nil =>
    have hkey : f.1 ∉ q.keys := not_mem_keys hdistinct
    have hf := length_writeAt_lt indent (depth + 1) f
    rw [List.length_append, List.map_nil] at hn
    obtain ⟨m, rfl⟩ : ∃ m, n = m + 1 := Nat.exists_eq_add_one.mpr (by omega)
    have hends : Ends (behind indent depth '\x7d' [] ++ rest) := ends_behind hclosing [] rest
    have hstep := entries_step hkey (h f List.mem_cons_self) (m := m) (by omega) hends
    exact hstep.1 rest (skip_behind_nil hclosing rest)
  | cons g r ih =>
    have hkey : f.1 ∉ q.keys := not_mem_keys hdistinct
    obtain ⟨hhead, htail⟩ := List.forall_mem_cons.mp h
    have hf := length_writeAt_lt indent (depth + 1) f
    have hlength := length_behind_cons indent depth '\x7d' (writeField indent (depth + 1) g)
      (r.map (writeField indent (depth + 1)))
    rw [List.length_append, List.map_cons] at hn
    obtain ⟨m, rfl⟩ : ∃ m, n = m + 1 := Nat.exists_eq_add_one.mpr (by omega)
    have hrest := ih (f := g) (q ++ [f]) htail (by rwa [List.append_assoc]) (n := m) (by omega)
    have hquote : writeField indent (depth + 1) g = '"' :: (writeField indent (depth + 1) g).tail := rfl
    obtain ⟨r', hskip, hnext⟩ := skip_behind_cons indent depth '\x7d' hquote (by decide)
      (r.map (writeField indent (depth + 1))) rest
    have hends : Ends (behind indent depth '\x7d' ((g :: r).map (writeField indent (depth + 1))) ++ rest) :=
      ends_behind hclosing _ rest
    have hstep := entries_step hkey hhead (m := m) (by omega) hends
    rw [hstep.2 r' hskip, hnext, hrest, List.append_assoc, List.singleton_append]

theorem reads_list {vs : List Value} (h : ∀ w ∈ vs, w.IsTree ∧ Reads (writeAt indent (depth + 1) w) w) :
    Reads (writeAt indent depth (.list vs)) (.list vs) := by
  intro n rest hn _
  rw [writeAt] at hn ⊢
  cases vs with
  | nil =>
    simp only [writeItems, bracketed, List.length_cons] at hn ⊢
    obtain ⟨m, rfl⟩ : ∃ m, n = m + 1 := Nat.exists_eq_add_one.mpr (by omega)
    rw [List.cons_append, value, List.singleton_append, skip_cons (by decide)]
    rfl
  | cons v vs =>
    rw [writeItems, bracketed_cons] at hn ⊢
    rw [List.length_cons, List.length_append] at hn
    obtain ⟨m, rfl⟩ : ∃ m, n = m + 1 := Nat.exists_eq_add_one.mpr (by omega)
    obtain ⟨c, s, hcs, hspace, hclose, -⟩ := writeAt_head (h v List.mem_cons_self).1 indent (depth + 1)
    have hitems := items_written h (n := m) rest (by omega)
    rw [List.cons_append, value, List.append_assoc, skip_append (isSpace_lineStart indent (depth + 1)), List.append_assoc]
    rw [hcs, List.cons_append] at hitems ⊢
    rw [skip_cons hspace]
    -- no item begins with the bracket that would end an empty list
    split
    · next heq =>
      cases heq
      exact absurd rfl hclose
    · rw [hitems]
      rfl

theorem reads_record {r : Value.Record} (hdistinct : r.keys.Nodup)
    (h : ∀ f ∈ r, f.2.IsTree ∧ Reads (writeAt indent (depth + 1) f.2) f.2) :
    Reads (writeAt indent depth (.ofRecord r)) (.ofRecord r) := by
  intro n rest hn _
  rw [Value.ofRecord, ← entriesOf, writeAt, writeEntries_entriesOf] at hn ⊢
  cases r with
  | nil =>
    simp only [List.map_nil, bracketed, List.length_cons] at hn ⊢
    obtain ⟨m, rfl⟩ : ∃ m, n = m + 1 := Nat.exists_eq_add_one.mpr (by omega)
    rw [List.cons_append, value, List.singleton_append, skip_cons (by decide)]
    rfl
  | cons f r =>
    rw [List.map_cons, bracketed_cons] at hn ⊢
    rw [List.length_cons, List.length_append] at hn
    obtain ⟨m, rfl⟩ : ∃ m, n = m + 1 := Nat.exists_eq_add_one.mpr (by omega)
    have hentries := entries_written [] h hdistinct (n := m) rest (by omega)
    rw [List.cons_append, value, List.append_assoc, skip_append (isSpace_lineStart indent (depth + 1)), List.append_assoc]
    have hquote : writeField indent (depth + 1) f = '"' :: (writeField indent (depth + 1) f).tail := rfl
    rw [hquote, List.cons_append] at hentries ⊢
    rw [skip_cons (by decide)]
    split
    · next heq => cases heq
    · have hnil : entries m [] = entries m (entriesOf []) := rfl
      rw [hnil, hentries]
      rfl

/-- A tree that is written is read up to its end. -/
theorem value_written {v : Value} (hv : v.IsTree) (indent : Option Nat) (depth : Nat) :
    Reads (writeAt indent depth v) v := by
  induction hv generalizing depth with
  | null => exact reads_null
  | bool b => exact reads_bool b
  | int fits =>
    rw [writeAt]
    exact reads_int fits
  | text s =>
    rw [writeAt]
    exact reads_text s
  | list members ih => exact reads_list fun w hw => ⟨members w hw, ih w hw (depth + 1)⟩
  | record distinct members ih => exact reads_record distinct fun f hf => ⟨members f hf, ih f hf (depth + 1)⟩

end

/-- Reading what is written gives the tree back. -/
theorem read_write {v : Value} (hv : v.IsTree) (indent : Option Nat) : read (write indent v) = .ok v := by
  have hvalue := value_written hv indent 0
  obtain ⟨c, s, hcs, hspace, -, hmark⟩ := writeAt_head hv indent 0
  -- the reader is given twice as many calls as the text has characters
  have hwhole : whole (writeAt indent 0 v) = .ok v := by
    have hread := hvalue (2 * (writeAt indent 0 v).length + 2) [] (by omega) (by simp [Ends])
    rw [List.append_nil] at hread
    rw [hcs] at hread ⊢
    rw [whole, skip_cons hspace, hread]
    rfl
  rw [hcs] at hwhole
  rw [read, write, String.toList_ofList, hcs]
  split
  · next heq =>
    cases heq
    exact absurd rfl hmark
  · rw [hwhole]
    rfl

end Harvest.Json
