import Harvest.Proofs.Reading

/-
  The grammar of queries in the standard dialect.

  A text is cut at its bars, and the pieces are trimmed. The first piece is the field. It is a selector if it holds no
  opening bracket; it is a selector with an attribute behind it if it ends in brackets around characters that are no
  brackets, and no opening bracket stands in front of them; anything else is taken for a selector as a whole, and then
  what stands behind the bars does not count (`Registry.Reads`, one constructor for each kind of field).
    1. `Registry.reads_iff` — reading gives a query and reports exactly when the grammar does. For each kind of field
       there is a lemma on the pattern (`fieldParts_selector`, `fieldParts_attribute`, `fieldParts_other`).
    2. `Registry.ask_reads` — so a memo answers by the grammar, and an expression is reported on when it is first asked
       for.
-/
namespace Harvest
open Text

/-! ## Steps and reports -/

/-- Whether the filter of an invocation is known. -/
def Registry.knows (r : Registry) (i : Invocation) : Bool := (r.find? i.name).isSome

/-- Whether steps are the invocations whose filters are known, in order, each with the filter of its name. -/
def Registry.Binds (r : Registry) (is : List Invocation) (ss : List Step) : Prop :=
  ss.map Step.invocation = is.filter r.knows ∧ ∀ s ∈ ss, r.find? s.name = some s.filter

/-- What is reported on invocations: the names of those whose filters are not known, if there are any. -/
def Registry.missed (r : Registry) (expression : String) (is : List Invocation) : List Event :=
  let names := (is.filter fun i => !r.knows i).map (·.name)
  if names = [] then [] else [.filterUnknown expression names]

section
variable {r : Registry} {is : List Invocation} {ss : List Step}

theorem Registry.bind_cons (i : Invocation) (is : List Invocation) :
    r.bind (i :: is) = (r.bind? i).toList ++ r.bind is := by
  rw [bind, bind, List.filterMap_cons]
  cases r.bind? i <;> rfl

/-- Known invocations are bound in one way only. -/
theorem Registry.binds_iff : r.Binds is ss ↔ ss = r.bind is := by
  induction is generalizing ss with
  | nil =>
    constructor
    · rintro ⟨h, -⟩
      exact List.map_eq_nil_iff.mp h
    · rintro rfl
      exact ⟨rfl, fun s hs => absurd hs List.not_mem_nil⟩
  | cons i is ih =>
    rw [bind_cons]
    cases hf : r.find? i.name with
    | none =>
      have hknows : r.knows i = false := by rw [knows, hf]; rfl
      have hbind : r.bind? i = none := by rw [bind?, hf]; rfl
      rw [hbind, Option.toList_none, List.nil_append, ← ih, Binds, Binds, List.filter_cons_of_neg (by simp [hknows])]
    | some f =>
      have hknows : r.knows i = true := by rw [knows, hf]; rfl
      have hbind : r.bind? i = some ⟨i.name, i.args, f⟩ := by rw [bind?, hf]; rfl
      rw [hbind, Option.toList_some, List.singleton_append, Binds, List.filter_cons_of_pos hknows]
      constructor
      · rintro ⟨h, hss⟩
        obtain ⟨⟨n, args, g⟩, ts, rfl, hs, hts⟩ := List.map_eq_cons_iff.mp h
        obtain ⟨hg, hrest⟩ := List.forall_mem_cons.mp hss
        obtain rfl : ⟨n, args⟩ = i := hs
        rw [hf, Option.some.injEq] at hg
        rw [hg, ih.mp ⟨hts, hrest⟩]
      · rintro rfl
        obtain ⟨hmap, hrest⟩ := ih.mpr rfl
        exact ⟨congrArg (i :: ·) hmap, List.forall_mem_cons.mpr ⟨hf, hrest⟩⟩

/-- A name is that of a step exactly when its filter is known. -/
theorem Registry.contains_name {i : Invocation} (hi : i ∈ is) :
    ((r.bind is).map (·.name)).contains i.name = r.knows i := by
  obtain ⟨hmap, hfind⟩ := binds_iff.mpr (rfl : r.bind is = r.bind is)
  rw [Bool.eq_iff_iff, List.contains_iff_mem, List.mem_map]
  constructor
  · rintro ⟨s, hs, hname⟩
    rw [knows, ← hname, hfind s hs]
    rfl
  · intro hknows
    have hstep : i ∈ (r.bind is).map Step.invocation := by
      rw [hmap]
      exact List.mem_filter.mpr ⟨hi, hknows⟩
    obtain ⟨s, hs, rfl⟩ := List.mem_map.mp hstep
    exact ⟨s, hs, rfl⟩

/-- Reports are on the invocations that were left out. -/
theorem Registry.unknownEvents_bind (e : String) : Dialect.unknownEvents e is (r.bind is) = r.missed e is := by
  have hlength : (r.bind is).length = (is.filter r.knows).length := by
    rw [← (binds_iff.mpr (rfl : r.bind is = r.bind is)).1, List.length_map]
  have hnames : ((is.map (·.name)).filter fun n => !((r.bind is).map (·.name)).contains n)
      = (is.filter fun i => !r.knows i).map (·.name) := by
    rw [List.filter_map]
    refine congrArg _ (List.filter_congr fun i hi => ?_)
    rw [Function.comp_apply, contains_name hi]
  have hall : (is.filter r.knows).length = is.length ↔ (is.filter fun i => !r.knows i).map (·.name) = [] := by
    simp [List.length_filter_eq_length_iff]
  rw [Dialect.unknownEvents, missed, hnames, hlength]
  simp only [hall]

end

/-! ## The grammar -/

/-- What a text says, and what is reported on it when it is read. -/
inductive Registry.Reads (r : Registry) (e : String) : Query → List Event → Prop where
  /-- A selector, which may be missing. -/
  | selector {f : List Char} {ps : List (List Char)} {ss : List Step} (h : pieces '|' e.toList = f :: ps)
      (hf : '[' ∉ f) (hss : r.Binds (invocationsOf ps) ss) :
      Reads r e ⟨filled? (some f), none, ss, e⟩ (r.missed e (invocationsOf ps))
  /-- A selector, which may be missing, and an attribute in brackets, which counts as missing if it is blank. -/
  | bracketed {p q : List Char} {ps : List (List Char)} {ss : List Step}
      (h : pieces '|' e.toList = (p ++ '[' :: (q ++ [']'])) :: ps) (hp : '[' ∉ p) (hne : q ≠ []) (hopen : '[' ∉ q)
      (hclose : ']' ∉ q) (hss : r.Binds (invocationsOf ps) ss) :
      Reads r e ⟨filled? (some p), filled? (some q), ss, e⟩ (r.missed e (invocationsOf ps))
  /-- Anything else. -/
  | whole {f : List Char} {ps : List (List Char)} (h : pieces '|' e.toList = f :: ps) (hf : '[' ∈ f)
      (hnot : ∀ p q, '[' ∉ p → q ≠ [] → '[' ∉ q → ']' ∉ q → f ≠ p ++ '[' :: (q ++ [']'])) :
      Reads r e { selector := some (String.ofList f), expression := e } [.selectorUnparsed e]

/-- Pieces are trimmed. -/
theorem trim_of_mem_pieces {c : Char} {s t : List Char} (h : t ∈ pieces c s) : trim t = t := by
  obtain ⟨u, -, rfl⟩ := List.mem_map.mp h
  exact trim_trim u

/-- A trimmed field of neither form does not match the pattern. -/
theorem fieldParts_eq_none {f : List Char} (ht : trim f = f) (hf : '[' ∈ f)
    (hnot : ∀ p q, '[' ∉ p → q ≠ [] → '[' ∉ q → ']' ∉ q → f ≠ p ++ '[' :: (q ++ [']'])) : fieldParts f = none := by
  obtain ⟨p, s, rfl, hp⟩ := List.eq_append_cons_of_mem hf
  refine fieldParts_other hp fun q t hne hopen hclose hs => ⟨?_, ?_⟩
  · rintro rfl
    exact hnot p q hp hne hopen hclose (by rw [hs])
  · rintro rfl
    -- a line end cannot stand last
    have hlast : p ++ '[' :: s = (p ++ '[' :: (q ++ [']'])) ++ ['\n'] := by simp [hs]
    have hkept := trimRight_eq_self.mp (trimRight_of_trim ht) (by simp)
    simp only [hlast, List.getLast_append_singleton] at hkept
    exact absurd hkept (by decide)

theorem Registry.read_of_reads {r : Registry} {e : String} {q : Query} {events : List Event} (h : r.Reads e q events) :
    r.dialect.read e = .ok (q, events) := by
  cases h with
  | selector h hf hss =>
    rw [read_eq r e h, readPieces, fieldParts_selector hf, binds_iff.mp hss, ← unknownEvents_bind]
    simp only [filled_unlessEmpty]
    rfl
  | bracketed h hp hne hopen hclose hss =>
    rw [read_eq r e h, readPieces, fieldParts_attribute hp hne hopen hclose, binds_iff.mp hss, ← unknownEvents_bind]
    simp only [filled_unlessEmpty]
  | @whole f ps h hf hnot =>
    have ht : trim f = f := trim_of_mem_pieces (h ▸ List.mem_cons_self)
    have hfilled : filled? (some f) = some (String.ofList f) := by
      obtain ⟨c, s, hc⟩ := List.exists_cons_of_ne_nil (List.ne_nil_of_mem hf)
      rw [filled?, Option.map_some, ht, hc]
    rw [read_eq r e h, readPieces, fieldParts_eq_none ht hf hnot]
    simp only [hfilled]

/-- The grammar has something to say on every text: its field is of one of three kinds. -/
theorem Registry.exists_reads (r : Registry) (e : String) : ∃ q events, r.Reads e q events := by
  obtain ⟨f, ps, h⟩ := List.exists_cons_of_ne_nil (pieces_ne_nil '|' e.toList)
  have hss : r.Binds (invocationsOf ps) (r.bind (invocationsOf ps)) := binds_iff.mpr rfl
  by_cases hf : '[' ∈ f
  · by_cases hform : ∃ p q, '[' ∉ p ∧ q ≠ [] ∧ '[' ∉ q ∧ ']' ∉ q ∧ f = p ++ '[' :: (q ++ [']'])
    · obtain ⟨p, q, hp, hne, hopen, hclose, rfl⟩ := hform
      exact ⟨_, _, .bracketed h hp hne hopen hclose hss⟩
    · exact ⟨_, _, .whole h hf fun p q hp hne hopen hclose he => hform ⟨p, q, hp, hne, hopen, hclose, he⟩⟩
  · exact ⟨_, _, .selector h hf hss⟩

/-- Reading follows the grammar. -/
theorem Registry.reads_iff {r : Registry} {e : String} {q : Query} {events : List Event} :
    r.dialect.read e = .ok (q, events) ↔ r.Reads e q events := by
  constructor
  · intro h
    obtain ⟨q', events', hreads⟩ := r.exists_reads e
    have heq := h.symm.trans (read_of_reads hreads)
    simp only [Except.ok.injEq, Prod.mk.injEq] at heq
    obtain ⟨rfl, rfl⟩ := heq
    exact hreads
  · exact read_of_reads

/-! ## Asking -/

/-- Whatever was asked for before, every text is answered with the one query that the grammar reads in it. What the
grammar reports is reported when the text is asked for the first time, and nothing else is. -/
theorem Registry.ask_reads (r : Registry) (earlier : List String) (e : String) :
    ∃ place q events, (∀ q' events', r.Reads e q' events' ↔ q' = q ∧ events' = events)
      ∧ (r.dialect.ask (r.dialect.askAll earlier) e).1
        = .ok ⟨place, q, if e ∈ earlier then [] else events⟩ := by
  obtain ⟨q, events, hreads⟩ := r.exists_reads e
  have hread := read_of_reads hreads
  have hheld : (r.dialect.askAll earlier).Holds e ↔ e ∈ earlier := by simp [Dialect.holds_askAll, hread]
  have hone : ∀ q' events', r.Reads e q' events' ↔ q' = q ∧ events' = events := by
    intro q' events'
    rw [← reads_iff, hread, Except.ok.injEq, Prod.mk.injEq, eq_comm, eq_comm (a := events)]
  unfold Dialect.ask
  cases hfind : (r.dialect.askAll earlier).find? e with
  | none =>
    have hnew : e ∉ earlier := fun h => Memo.find?_eq_none.mp hfind (hheld.mpr h)
    refine ⟨(r.dialect.askAll earlier).length, q, events, hone, ?_⟩
    simp only [hread, if_neg hnew]
  | some found =>
    obtain ⟨place, q'⟩ := found
    obtain ⟨hmem, hexpression⟩ := Memo.expression_of_find? hfind
    obtain ⟨events', hread'⟩ := (r.dialect.askAll_sound earlier).read_of_find? hfind
    obtain ⟨rfl, rfl⟩ := (hone q' events').mp (reads_iff.mp hread')
    refine ⟨place, q', events', hone, ?_⟩
    simp only [if_pos (hheld.mp ⟨q', hmem, hexpression⟩)]

end Harvest
