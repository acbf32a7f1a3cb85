import Harvest.Proofs.Entries
import Harvest.Proofs.Shape

/-
  Records made of columns stay aligned.

  A mapping without a root, met as the item of a list, is read column by column: each text and each mapping with a root
  makes a leaf column, also those in mappings without a root inside (`leaves`). Record `i` then holds what stands at
  position `i` of the leaf columns, each under the path down to the leaf, and nothing else:
    * a leaf is in it exactly if its column has a value there, and with that value;
    * a mapping on the way to leaves is in it exactly if one of these leaves is;
    * names are in the order of declaration.
  There is a record for each position of the longest leaf column, also where all columns have gaps. So nothing is lost,
  and nothing moves to another position.

  The proof goes through the fields (`columns_lined`). What is known of the first field and what is known of the others
  is put together by `Aligned.append`, since no path of the one begins like a path of the others; a mapping inside adds
  its name in front of all its paths (`Aligned.under`).
-/
namespace Harvest
open Markup

/-! ## Paths -/

/-- The names on the way down to a value. -/
abbrev KeyPath := List String

/-- The first name of a path is one of some. -/
def KeyPath.Begins (names : List String) (p : KeyPath) : Prop := ∃ k ∈ names, ∃ q, p = k :: q

/-- The value at the end of a path. -/
def Value.reach? : KeyPath → Value → Option Value
  | [], w => some w
  | k :: p, .map es => (Value.find? (.text k) es).bind (reach? p)
  | _ :: _, _ => none

namespace Value
variable {k : String} {p : KeyPath} {q r : Record}

/-- The first step of a path looks a name up. -/
theorem reach?_cons (k : String) (p : KeyPath) (r : Record) :
    (ofRecord r).reach? (k :: p) = (r.lookup k).bind (reach? p) := by
  rw [ofRecord, ← entriesOf, reach?, find?_entriesOf]

theorem reach?_consField (k : String) (p : KeyPath) (v? : Option Value) :
    (ofRecord (consField k v? [])).reach? (k :: p) = v?.bind (reach? p) := by
  rw [reach?_cons, lookup_consField_self List.not_mem_nil]

/-- A path goes into the part of a record that has its first name. -/
theorem reach?_append_left (h : k ∉ q.keys) : (ofRecord (r ++ q)).reach? (k :: p) = (ofRecord r).reach? (k :: p) := by
  rw [reach?_cons, reach?_cons, List.lookup_append, lookup_eq_none.mpr h, Option.or_none]

theorem reach?_append_right (h : k ∉ r.keys) : (ofRecord (r ++ q)).reach? (k :: p) = (ofRecord q).reach? (k :: p) := by
  rw [reach?_cons, reach?_cons, List.lookup_append, lookup_eq_none.mpr h, Option.none_or]

theorem consField_eq_append (k : String) (v? : Option Value) (r : Record) : consField k v? r = consField k v? [] ++ r := by
  cases v? <;> rfl

end Value

/-! ## Leaves -/

/-- A leaf: the path down to it, and its column. -/
structure Leaf where
  path : KeyPath
  column : List Value

namespace Leaf

/-- A leaf of a mapping as one of the mapping around it. -/
def under (k : String) (l : Leaf) : Leaf := ⟨k :: l.path, l.column⟩

/-- The length of the longest column. -/
def longest (ls : List Leaf) : Nat := (ls.map (·.column.length)).foldr max 0

/-- Whether at a position something stands in a leaf at a path or below it. -/
def Present (ls : List Leaf) (p : KeyPath) (i : Nat) : Prop := ∃ l ∈ ls, p <+: l.path ∧ (cell? l.column i).isSome

variable {k : String} {p : KeyPath} {i : Nat} {ls ms : List Leaf}

theorem longest_append (ls ms : List Leaf) : longest (ls ++ ms) = max (longest ls) (longest ms) := by
  induction ls with
  | nil => simp [longest]
  | cons l ls ih =>
    have hcons : ∀ ns, longest (l :: ns) = max l.column.length (longest ns) := fun _ => rfl
    rw [List.cons_append, hcons, hcons, ih, Nat.max_assoc]

theorem longest_under (k : String) (ls : List Leaf) : longest (ls.map (under k)) = longest ls := by
  simp [longest, under, Function.comp_def]

theorem present_append : Present (ls ++ ms) p i ↔ Present ls p i ∨ Present ms p i := by
  simp only [Present, List.mem_append, or_and_right, exists_or]

theorem present_under : Present (ls.map (under k)) (k :: p) i ↔ Present ls p i := by
  simp [Present, under, List.cons_prefix_cons]

/-- At the top all leaves count. -/
theorem present_nil_under : Present (ls.map (under k)) [] i ↔ Present ls [] i := by
  simp [Present, under]

theorem Present.top (h : Present ls p i) : Present ls [] i := by
  obtain ⟨l, hl, -, hi⟩ := h
  exact ⟨l, hl, List.nil_prefix, hi⟩

/-- Nothing is present where no leaf has its path. -/
theorem not_present {names : List String} (h : ∀ l ∈ ls, l.path.Begins names) (hk : k ∉ names) :
    ¬ Present ls (k :: p) i := by
  rintro ⟨l, hl, hp, -⟩
  obtain ⟨j, hj, q, hq⟩ := h l hl
  rw [hq, List.cons_prefix_cons] at hp
  exact hk (hp.1 ▸ hj)

end Leaf

open Leaf

/-- The leaves of a mapping that is read column by column.
  * A text has what it makes of each of its matches.
  * A mapping with a root has what it gives in the scope of each match, without the root; records without fields count
    as absent.
  * A mapping without a root has its own leaves.
  * A list has nothing. -/
def leaves [Css.Library] (x : Engine) (scope : Scope) : List (String × Compiled) → Except Fault (List Leaf)
  | [] => .ok []
  | (k, .text e) :: fs => do
    let vs ← Meaning.plural x e scope
    return ⟨[k], vs⟩ :: (← leaves x scope fs)
  | (k, .mapping (.mk (some root) gs source)) :: fs => do
    let s ← Meaning.found (scope.findAll root)
    let vs ← s.elements.mapM fun e => Meaning.resolve x (.schema (.mapping (.mk none gs source))) (.of e)
    return ⟨[k], vs.map blankToNull⟩ :: (← leaves x scope fs)
  | (k, .mapping (.mk none gs _)) :: fs => do
    let ls ← leaves x scope gs
    return ls.map (under k) ++ (← leaves x scope fs)
  | (k, .list _) :: fs => do return ⟨[k], []⟩ :: (← leaves x scope fs)

/-- The mappings inside a mapping that is read column by column: the path down to each, and the names of its fields. -/
def nested : List (String × Compiled) → List (KeyPath × List String)
  | [] => []
  | (k, .mapping (.mk (some _) gs _)) :: fs => ([k], gs.map (·.1)) :: nested fs
  | (k, .mapping (.mk none gs _)) :: fs =>
    (([k], gs.map (·.1)) :: (nested gs).map fun n => (k :: n.1, n.2)) ++ nested fs
  | (_, .text _) :: fs | (_, .list _) :: fs => nested fs

theorem nested_append (fs gs : List (String × Compiled)) : nested (fs ++ gs) = nested fs ++ nested gs := by
  induction fs with
  | nil => simp [nested]
  | cons f fs ih =>
    match f with
    | (_, .text _) | (_, .list _) | (_, .mapping (.mk (some _) _ _)) | (_, .mapping (.mk none _ _)) =>
      simp [nested, ih]

/-- The paths to mappings inside begin with names of fields. -/
theorem nested_begins {fs : List (String × Compiled)} {n : KeyPath × List String} (hn : n ∈ nested fs) :
    n.1.Begins (fs.map (·.1)) := by
  induction fs with
  | nil => simp [nested] at hn
  | cons f fs ih =>
    have hfs : ∀ k, n ∈ nested fs → n.1.Begins (k :: fs.map (·.1)) := by
      intro k hn
      obtain ⟨j, hj, hp⟩ := ih hn
      exact ⟨j, List.mem_cons_of_mem _ hj, hp⟩
    match f, hn with
    | (k, .text _), hn | (k, .list _), hn =>
      rw [nested] at hn
      exact hfs k hn
    | (k, .mapping (.mk (some _) _ _)), hn =>
      rw [nested] at hn
      rcases List.mem_cons.mp hn with rfl | hn
      · exact ⟨k, List.mem_cons_self, [], rfl⟩
      · exact hfs k hn
    | (k, .mapping (.mk none gs _)), hn =>
      rw [nested] at hn
      rcases List.mem_append.mp hn with hn | hn
      · rcases List.mem_cons.mp hn with rfl | hn
        · exact ⟨k, List.mem_cons_self, [], rfl⟩
        · obtain ⟨m, -, rfl⟩ := List.mem_map.mp hn
          exact ⟨k, List.mem_cons_self, m.1, rfl⟩
      · exact hfs k hn

/-- The mappings inside one field that is a mapping without a root. -/
theorem mem_nested_under {k : String} {gs : List (String × Compiled)} {source : Entries} {n : KeyPath × List String} :
    n ∈ nested [(k, .mapping (.mk none gs source))] ↔
      n = ([k], gs.map (·.1)) ∨ ∃ m ∈ nested gs, n = (k :: m.1, m.2) := by
  simp [nested, eq_comm]

/-! ## Records -/

/-- A record that holds what stands in leaf columns at a position, for the fields of a mapping. -/
structure Aligned (fs : List (String × Compiled)) (ls : List Leaf) (i : Nat) (r : Value.Record) : Prop where
  ordered : r.keys.Sublist (fs.map (·.1))
  /-- The record is empty only where all columns have gaps. -/
  empty : r = [] ↔ ¬ Present ls [] i
  leaf : ∀ l ∈ ls, (Value.ofRecord r).reach? l.path = cell? l.column i
  present : ∀ n ∈ nested fs, ((Value.ofRecord r).reach? n.1).isSome ↔ Present ls n.1 i
  within : ∀ n ∈ nested fs, ∀ w, (Value.ofRecord r).reach? n.1 = some w →
    ∃ q, w = .ofRecord q ∧ q.keys.Sublist n.2

namespace Aligned
variable {fs gs : List (String × Compiled)} {ls ms : List Leaf} {i : Nat} {q r : Value.Record} {k : String}

/-- Records for fields with different names, one behind the other. -/
theorem append (hr : Aligned fs ls i r) (hq : Aligned gs ms i q) (hls : ∀ l ∈ ls, l.path.Begins (fs.map (·.1)))
    (hms : ∀ l ∈ ms, l.path.Begins (gs.map (·.1))) (hdisj : ∀ k ∈ fs.map (·.1), k ∉ gs.map (·.1)) :
    Aligned (fs ++ gs) (ls ++ ms) i (r ++ q) := by
  -- a path that begins like those of one side meets nothing of the other
  have hleft : ∀ p : KeyPath, p.Begins (fs.map (·.1)) →
      (Value.ofRecord (r ++ q)).reach? p = (Value.ofRecord r).reach? p ∧ (Present (ls ++ ms) p i ↔ Present ls p i) := by
    rintro p ⟨k, hk, p, rfl⟩
    refine ⟨Value.reach?_append_left fun h => hdisj k hk (hq.ordered.subset h), ?_⟩
    rw [present_append, or_iff_left (not_present hms (hdisj k hk))]
  have hright : ∀ p : KeyPath, p.Begins (gs.map (·.1)) →
      (Value.ofRecord (r ++ q)).reach? p = (Value.ofRecord q).reach? p ∧ (Present (ls ++ ms) p i ↔ Present ms p i) := by
    rintro p ⟨k, hk, p, rfl⟩
    have hkf : k ∉ fs.map (·.1) := fun h => hdisj k h hk
    refine ⟨Value.reach?_append_right fun h => hkf (hr.ordered.subset h), ?_⟩
    rw [present_append, or_iff_right (not_present hls hkf)]
  refine ⟨?_, ?_, fun l hl => ?_, fun n hn => ?_, fun n hn w hw => ?_⟩
  · simpa [Value.Record.keys] using hr.ordered.append hq.ordered
  · rw [List.append_eq_nil_iff, hr.empty, hq.empty, present_append, not_or]
  · rcases List.mem_append.mp hl with hl | hl
    · rw [(hleft _ (hls l hl)).1, hr.leaf l hl]
    · rw [(hright _ (hms l hl)).1, hq.leaf l hl]
  · rw [nested_append, List.mem_append] at hn
    rcases hn with hn | hn
    · rw [(hleft _ (nested_begins hn)).1, (hleft _ (nested_begins hn)).2, hr.present n hn]
    · rw [(hright _ (nested_begins hn)).1, (hright _ (nested_begins hn)).2, hq.present n hn]
  · rw [nested_append, List.mem_append] at hn
    rcases hn with hn | hn
    · rw [(hleft _ (nested_begins hn)).1] at hw
      exact hr.within n hn w hw
    · rw [(hright _ (nested_begins hn)).1] at hw
      exact hq.within n hn w hw

/-- One field that is a leaf. -/
theorem single {s : Compiled} {vs : List Value}
    (hn : ∀ n ∈ nested [(k, s)], n.1 = [k] ∧ ∀ v ∈ vs, v ≠ .null → ∃ q, v = .ofRecord q ∧ q.keys.Sublist n.2) :
    Aligned [(k, s)] [⟨[k], vs⟩] i (Value.consField k (cell? vs i) []) := by
  have hreach : (Value.ofRecord (Value.consField k (cell? vs i) [])).reach? [k] = cell? vs i := by
    rw [Value.reach?_consField]
    cases cell? vs i <;> rfl
  refine ⟨Value.keys_consField .slnil, ?_, fun l hl => ?_, fun n hmem => ?_, fun n hmem w hw => ?_⟩
  · rw [Value.consField_eq_nil]
    simp [Present]
  · obtain rfl := List.mem_singleton.mp hl
    exact hreach
  · rw [(hn n hmem).1, hreach]
    simp [Present]
  · rw [(hn n hmem).1, hreach] at hw
    obtain ⟨hv, hnull⟩ := mem_of_cell? hw
    exact (hn n hmem).2 w hv hnull

variable {source : Entries}

/-- One field that is a mapping without a root in which nothing stands. -/
theorem under_nil (h : Aligned gs ls i []) :
    Aligned [(k, .mapping (.mk none gs source))] (ls.map (Leaf.under k)) i [] := by
  have hgap : ∀ p, ¬ Present ls p i := fun p hp => h.empty.mp rfl hp.top
  have hreach : ∀ p, (Value.ofRecord []).reach? (k :: p) = none := fun p => Value.reach?_cons k p []
  have hnested : ∀ n ∈ nested [(k, .mapping (.mk none gs source))], ∃ p, n.1 = k :: p := by
    intro n hn
    obtain ⟨j, hj, p, hp⟩ := nested_begins hn
    obtain rfl := List.mem_singleton.mp hj
    exact ⟨p, hp⟩
  refine ⟨List.nil_sublist _, ?_, fun l hl => ?_, fun n hn => ?_, fun n hn w hw => ?_⟩
  · simp only [present_nil_under, hgap, not_false_eq_true]
  · obtain ⟨m, hm, rfl⟩ := List.mem_map.mp hl
    have hcell : ¬ (cell? m.column i).isSome := fun hi => hgap m.path ⟨m, hm, List.prefix_rfl, hi⟩
    rw [Leaf.under, hreach]
    exact (Option.not_isSome_iff_eq_none.mp hcell).symm
  · obtain ⟨p, hp⟩ := hnested n hn
    rw [hp, hreach, present_under]
    simp [hgap]
  · obtain ⟨p, hp⟩ := hnested n hn
    rw [hp, hreach] at hw
    cases hw

/-- One field that is a mapping without a root in which something stands. -/
theorem under_ne_nil (h : Aligned gs ls i r) (hr : r ≠ []) :
    Aligned [(k, .mapping (.mk none gs source))] (ls.map (Leaf.under k)) i [(k, .ofRecord r)] := by
  -- the leaf that makes the record other than empty makes its name present, too
  have hpresent : Present ls [] i := by
    by_contra hgap
    exact hr (h.empty.mpr hgap)
  have hreach : ∀ p, (Value.ofRecord [(k, .ofRecord r)]).reach? (k :: p) = (Value.ofRecord r).reach? p :=
    fun p => Value.reach?_consField k p (some (.ofRecord r))
  refine ⟨List.Sublist.refl [k], ?_, fun l hl => ?_, fun n hn => ?_, fun n hn w hw => ?_⟩
  · simp [present_nil_under, hpresent]
  · obtain ⟨m, hm, rfl⟩ := List.mem_map.mp hl
    rw [Leaf.under, hreach]
    exact h.leaf m hm
  · rcases mem_nested_under.mp hn with rfl | ⟨m, hm, rfl⟩
    · rw [hreach, present_under]
      simpa [Value.reach?] using hpresent
    · rw [hreach, present_under, h.present m hm]
  · rcases mem_nested_under.mp hn with rfl | ⟨m, hm, rfl⟩
    · rw [hreach] at hw
      obtain rfl : Value.ofRecord r = w := by simpa [Value.reach?] using hw
      exact ⟨r, rfl, h.ordered⟩
    · rw [hreach] at hw
      exact h.within m hm w hw

end Aligned

/-! ## Columns -/

/-- At each position of columns of records stands the record there, unless it is empty. -/
theorem cell?_zip (cs : Columns) (i : Nat) :
    cell? ((cs.zip.map Value.ofRecord).map blankToNull) i
      = if cs.recordAt i = [] then none else some (.ofRecord (cs.recordAt i)) := by
  rw [cell?, List.getElem?_map, List.getElem?_map, Columns.getElem?_zip]
  by_cases hi : i < cs.height
  · rw [if_pos hi]
    cases cs.recordAt i <;> rfl
  · -- behind the longest column there is no record, and the columns make none
    rw [if_neg hi, if_pos (Columns.recordAt_of_height_le (by omega))]
    rfl

/-- The columns that fields make, beside their leaves. -/
structure Lined (fs : List (String × Compiled)) (cs : Columns) (ls : List Leaf) : Prop where
  keys : cs.keys = fs.map (·.1)
  begins : ∀ l ∈ ls, l.path.Begins (fs.map (·.1))
  height : cs.height = longest ls
  aligned : ∀ i, Aligned fs ls i (cs.recordAt i)

namespace Lined
variable {fs gs : List (String × Compiled)} {k : String} {s : Compiled} {vs : List Value} {cs : Columns}
variable {ls ms : List Leaf}

/-- Without fields there are neither columns nor leaves, and all records are empty. -/
theorem nil : Lined [] [] [] := by
  refine ⟨rfl, nofun, rfl, fun i => ⟨.slnil, ?_, nofun, ?_, ?_⟩⟩
  · simp [Columns.recordAt, Present]
  · simp [nested]
  · simp [nested]

/-- A field in front of others: its column in front of the columns, and its leaves in front of the leaves. -/
theorem cons (hfs : ProperFields ((k, s) :: fs)) (hcs : Lined fs cs ls) (hms : ∀ l ∈ ms, l.path.Begins [k])
    (hheight : vs.length = longest ms) (hhead : ∀ i, Aligned [(k, s)] ms i (Value.consField k (cell? vs i) [])) :
    Lined ((k, s) :: fs) ((k, vs) :: cs) (ms ++ ls) := by
  have hkeys : Columns.keys ((k, vs) :: cs) = ((k, s) :: fs).map (·.1) := by
    rw [Columns.keys_cons, hcs.keys, List.map_cons]
  refine ⟨hkeys, fun l hl => ?_, ?_, fun i => ?_⟩
  · rcases List.mem_append.mp hl with hl | hl
    · obtain ⟨j, hj, hp⟩ := hms l hl
      exact ⟨j, List.mem_append_left _ hj, hp⟩
    · obtain ⟨j, hj, hp⟩ := hcs.begins l hl
      exact ⟨j, List.mem_cons_of_mem _ hj, hp⟩
  · rw [Columns.height, hheight, hcs.height, longest_append]
  · rw [Columns.recordAt_cons (hkeys ▸ hfs.nodup), Value.consField_eq_append]
    refine (hhead i).append (hcs.aligned i) hms hcs.begins fun j hj => ?_
    obtain rfl := List.mem_singleton.mp hj
    exact hfs.2.1

/-- A field that is a leaf in front of others. -/
theorem cons_single (hfs : ProperFields ((k, s) :: fs)) (hcs : Lined fs cs ls)
    (hn : ∀ n ∈ nested [(k, s)], n.1 = [k] ∧ ∀ v ∈ vs, v ≠ .null → ∃ q, v = .ofRecord q ∧ q.keys.Sublist n.2) :
    Lined ((k, s) :: fs) ((k, vs) :: cs) (⟨[k], vs⟩ :: ls) := by
  show Lined _ _ ([⟨[k], vs⟩] ++ ls)
  refine hcs.cons hfs (fun l hl => ?_) ?_ fun i => .single hn
  · obtain rfl := List.mem_singleton.mp hl
    exact ⟨k, List.mem_singleton_self k, [], rfl⟩
  · simp [longest]

/-- A mapping without a root in front of other fields. -/
theorem cons_under {ds : Columns} {source : Entries} (hfs : ProperFields ((k, .mapping (.mk none gs source)) :: fs))
    (hcs : Lined fs cs ls) (hds : Lined gs ds ms) :
    Lined ((k, .mapping (.mk none gs source)) :: fs) ((k, (ds.zip.map Value.ofRecord).map blankToNull) :: cs)
      (ms.map (Leaf.under k) ++ ls) := by
  refine hcs.cons hfs (fun l hl => ?_) ?_ fun i => ?_
  · obtain ⟨m, -, rfl⟩ := List.mem_map.mp hl
    exact ⟨k, List.mem_singleton_self k, m.path, rfl⟩
  · rw [List.length_map, List.length_map, Columns.length_zip, hds.height, longest_under]
  · have haligned := hds.aligned i
    rw [cell?_zip]
    by_cases hr : ds.recordAt i = []
    · rw [if_pos hr]
      exact .under_nil (hr ▸ haligned)
    · rw [if_neg hr]
      exact haligned.under_ne_nil hr

end Lined

namespace Meaning
variable [Css.Library] {x : Engine}

/-- The names of fields that came to a record are in the order of declaration. -/
theorem keys_fields {expand : Expansion} {scope : Scope} {fs : List (String × Compiled)} {r : Value.Record}
    (h : fields x expand scope fs = .ok r) : r.keys.Sublist (fs.map (·.1)) := by
  induction fs generalizing r with
  | nil =>
    cases h
    exact .slnil
  | cons f fs ih =>
    obtain ⟨k, s⟩ := f
    obtain ⟨v, -, h⟩ := bind_eq_ok.mp h
    obtain ⟨q, hq, h⟩ := bind_eq_ok.mp h
    cases h
    rw [Value.withField_eq]
    exact Value.keys_consField (ih hq)

/-- What a mapping without a root gives, as a call of its own. -/
theorem resolve_schema (hx : x.mappingHook = none) (gs : List (String × Compiled)) (source : Entries) (scope : Scope) :
    resolve x (.schema (.mapping (.mk none gs source))) scope
      = filled none (fun s => fields x (expanding x 0) s gs) scope := by
  have hv : Schema.compile (.schema (.mapping (.mk none gs source))) = .ok (.mapping (.mk none gs source)) := by
    simp [Schema.compile]
  exact resolve_mapping hx hv scope

/-- The columns of fields are found, or fail to be, as the leaves are, and both belong together. -/
theorem columns_lined (hx : x.mappingHook = none) (scope : Scope) : ∀ {fs : List (String × Compiled)}, ProperFields fs →
    Agree (Lined fs) (columns x (expanding x 0) scope fs) (leaves x scope fs)
  | [], _ => by
    rw [columns, leaves]
    exact .ok .nil
  | (k, .text e) :: fs, hfs => by
    rw [columns, leaves]
    apply Agree.bind_same
    intro vs _
    apply Agree.bind (columns_lined hx scope hfs.2.2.2)
    intro cs ls hcs
    exact .ok (hcs.cons_single hfs (by simp [nested]))
  | (k, .mapping (.mk (some root) gs source)) :: fs, hfs => by
    rw [columns, leaves, records_eq hx, bind_assoc]
    simp only [resolve_schema hx]
    apply Agree.bind_same
    intro s _
    apply Agree.bind_same
    intro vs hvs
    apply Agree.bind (columns_lined hx scope hfs.2.2.2)
    intro cs ls hcs
    -- each entry of the column that counts is a record that was filled in the scope of a match
    refine .ok (hcs.cons_single hfs fun n hn => ?_)
    obtain rfl : n = ([k], gs.map (·.1)) := by simpa [nested] using hn
    refine ⟨rfl, fun v hv hnull => ?_⟩
    obtain ⟨e, -, he⟩ := exists_of_mapM hvs (mem_of_mem_map_blankToNull hv hnull).1
    obtain ⟨_, q, -, hq, rfl⟩ := filled_eq_ok.mp he
    exact ⟨q, rfl, keys_fields hq⟩
  | (k, .mapping (.mk none gs source)) :: fs, hfs => by
    rw [columns, leaves]
    apply Agree.bind (columns_lined hx scope hfs.2.2.1)
    intro ds ms hds
    apply Agree.bind (columns_lined hx scope hfs.2.2.2)
    intro cs ls hcs
    exact .ok (hcs.cons_under hfs hds)
  | (k, .list is) :: fs, hfs => by
    rw [columns, leaves]
    apply Agree.bind (columns_lined hx scope hfs.2.2.2)
    intro cs ls hcs
    exact .ok (hcs.cons_single hfs (by simp [nested]))

/-- The records of a mapping without a root, as the item of a list. -/
theorem resolve_aligned (hx : x.mappingHook = none) {v : Value} (hv : v.Formed) {fs : List (String × Compiled)}
    {source : Entries} (hs : Schema.compile v = .ok (.mapping (.mk none fs source))) (scope : Scope) :
    Agree (fun w ls => ∃ rs : List Value.Record, w = .list (rs.map Value.ofRecord) ∧ rs.length = longest ls
      ∧ ∀ i r, rs[i]? = some r → Aligned fs ls i r) (resolve x (.list [v]) scope) (leaves x scope fs) := by
  have hfs : ProperFields fs := hv.proper hs
  have hlist : resolve x (.list [v]) scope
      = columns x (expanding x 0) scope fs >>= fun cs => .ok (.list (cs.zip.map Value.ofRecord)) := by
    rw [resolve_ok (Schema.compile_list_mapping hs), value_expand hx _ (expanding x 0), value, items, bind_assoc]
    simp [items]
  rw [hlist, ← bind_pure (leaves x scope fs)]
  refine (columns_lined hx scope hfs).bind fun cs ls hcs => .ok ⟨cs.zip, rfl, ?_, fun i r hr => ?_⟩
  · rw [Columns.length_zip, hcs.height]
  · rw [Columns.getElem?_zip] at hr
    split at hr
    · cases hr
      exact hcs.aligned i
    · cases hr

end Meaning

/-! ## A page to try -/

namespace Sample

/-- A title, and inside a mapping the items. -/
def table : Value := .map [(.text "title", .text "b"), (.text "more", .map [(.text "item", .map titles)])]

theorem table_formed : table.Formed := by
  have hmore : (Value.map [(.text "item", .map titles)]).Formed := .map (by simp) (by simp [titles_formed])
  exact .map (by simp) (by simp [Value.Formed.text, hmore])

/-- What the table compiles to. -/
def tableFields : List (String × Compiled) :=
  [("title", .text "b"), ("more", .mapping (.mk none
    [("item", .mapping (.mk (some "li") [("title", .text "b")] titles))] [(.text "item", .map titles)]))]

theorem plural_title : Meaning.plural options.engine "b" (.of page) = .ok [.text "x"] := by
  have hselect : Css.select [.one [.name "b"]] page = [title] := by
    rw [Css.select, descendants_page]
    rfl
  have hfind : Meaning.findMany (.of page) { selector := some "b", expression := "b" } = .ok (.ofList [title]) := by
    simp [Meaning.findMany, Scope.findAll, Scope.search, read_title, Css.Selector.finder, Scope.of, hselect, Meaning.found]
  rw [Meaning.plural, query_title, ok_bind, hfind]
  rfl

/-- The columns of the table: one title, and two items of which the second is empty. -/
def columns : List Leaf :=
  [⟨["title"], [.text "x"]⟩, ⟨["more", "item"], [.ofRecord [("title", .text "x")], .null]⟩]

theorem leaves_table : leaves options.engine (.of page) tableFields = .ok columns := by
  have hresolve : ∀ e : Element,
      Meaning.resolve options.engine (.schema (.mapping (.mk none [("title", .text "b")] titles))) (.of e) = _ :=
    fun e => Meaning.resolve_schema rfl _ _ _
  simp only [tableFields, leaves, plural_title, findAll_items, Meaning.found, elements_items, hresolve, filled_items,
    ok_bind, pure_eq_ok]
  rfl

end Sample

/-! ## Calls -/

/-- A mapping without a root, as the item of a list, gives a record for each position of its longest leaf column, and
record `i` holds what the leaf columns hold at `i`, under their paths. If a leaf fails, the call fails with it, and
otherwise it does not. -/
theorem Extractor.result_aligned [Css.Library] (page : Element) (o : Options) (hm : o.mappingHook = none) (history : List Call)
    {v : Value} (hv : v.Formed) {fs : List (String × Compiled)} {source : Entries}
    (hs : Schema.compile v = .ok (.mapping (.mk none fs source))) (scope : Option Scope) :
    Agree (fun w ls => ∃ rs : List Value.Record, w = .list (rs.map Value.ofRecord) ∧ rs.length = longest ls
        ∧ ∀ i r, rs[i]? = some r → Aligned fs ls i r)
      (((fresh page o).after history).result (.list [v]) scope)
      (leaves o.engine (scope.getD (.of page)) fs) := by
  have hx : o.engine.mappingHook = none := by simp [Options.engine, hm]
  rw [result_after]
  exact Meaning.resolve_aligned hx hv hs _

/-- The law for a table of two columns: the second record is there, and empty, since the second item has no title. -/
theorem Extractor.result_aligned_sample :
    ∃ rs : List Value.Record,
      ((fresh Sample.page Sample.options).after []).result (.list [Sample.table]) none
        = .ok (.list (rs.map Value.ofRecord))
      ∧ rs.length = 2 ∧ ∀ i r, rs[i]? = some r → Aligned Sample.tableFields Sample.columns i r := by
  have hs : Schema.compile Sample.table = .ok (.mapping (.mk none Sample.tableFields _)) := rfl
  have law := result_aligned Sample.page Sample.options rfl [] Sample.table_formed hs none
  have hleaves : leaves Sample.options.engine ((none : Option Scope).getD (.of Sample.page)) Sample.tableFields
      = .ok Sample.columns := Sample.leaves_table
  rw [hleaves] at law
  obtain ⟨w, hw, rs, rfl, hlength, haligned⟩ := law.eq_ok
  exact ⟨rs, hw, hlength, haligned⟩

end Harvest
