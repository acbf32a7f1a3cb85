import Harvest.Proofs.Reading
import Harvest.Render

/-
  Filters written behind an expression.

  One more bar and a text without bars behind an expression add the last piece and leave all others alone
  (`pieces_between`), whatever the expression ends with: blanks, a bar, a quotation that was never closed. So the query
  keeps its selector and its part, and has at most one step more, at the end (`Registry.readPieces_concat`). Values go
  through the steps in order (`runSteps_append`). So the new filter works on what the query made of an element before:
  `Registry.render_appended`.
-/
namespace Harvest
open Text Markup

/-- Steps behind others work on what these come to. -/
theorem runSteps_append (v : Value) (ss ts : List Step) :
    runSteps v (ss ++ ts) = runSteps v ss >>= fun w => runSteps w ts := by
  induction ss generalizing v with
  | nil => rfl
  | cons s ss ih =>
    rw [List.cons_append, runSteps, runSteps]
    cases s.run v with
    | error f => rfl
    | ok w => exact ih w

theorem invocationsOf_append (ps qs : List (List Char)) :
    invocationsOf (ps ++ qs) = invocationsOf ps ++ invocationsOf qs := by
  rw [invocationsOf, List.filter_append, List.map_append, invocationsOf, invocationsOf]

/-! ## One more step -/

/-- The query with one more step, if there is one. -/
def Query.withStep (q : Query) (s? : Option Step) : Query := { q with steps := q.steps ++ s?.toList }

theorem Query.render_withStep (q : Query) (s? : Option Step) (e : Element) :
    (q.withStep s?).render e =
      match s? with
      | none => q.render e
      | some s => q.render e >>= fun v => s.run v := by
  have hraw : (q.withStep s?).raw e = q.raw e := rfl
  rw [render, hraw, withStep]
  cases s? with
  | none => rw [Option.toList_none, List.append_nil, render]
  | some s =>
    rw [Option.toList_some, runSteps_append, ← render]
    refine bind_congr fun v => ?_
    rw [runSteps]
    cases s.run v <;> rfl

/-- The step that a text behind a bar stands for: none if the text is blank or its filter is not known. -/
def Registry.stepOf? (r : Registry) (t : List Char) : Option Step :=
  if allBlank t then none else r.bind? (Invocation.read ":" (String.ofList (trim t)))

section
variable {r : Registry}

theorem Registry.bind_invocationsOf_singleton (t : List Char) :
    r.bind (invocationsOf [trim t]) = (r.stepOf? t).toList := by
  have hblank : allBlank (trim t) = allBlank t := by
    rw [Bool.eq_iff_iff, ← trim_eq_nil, trim_trim, trim_eq_nil]
  rw [stepOf?]
  by_cases h : allBlank t = true
  · simp [invocationsOf, hblank, h, Registry.bind]
  · have hkept : invocationsOf [trim t] = [Invocation.read ":" (String.ofList (trim t))] := by
      simp [invocationsOf, hblank, h]
    rw [hkept, if_neg h, Registry.bind, List.filterMap_cons, List.filterMap_nil]
    cases r.bind? (Invocation.read ":" (String.ofList (trim t))) <;> rfl

/-- Where the field fits, one more piece adds its step to the query. -/
theorem Registry.readPieces_concat {f : List Char} (hf : (fieldParts f).isSome) (e e' : String) (ps : List (List Char))
    (t : List Char) :
    (r.readPieces e' f (ps ++ [trim t])).1
      = { (r.readPieces e f ps).1.withStep (r.stepOf? t) with expression := e' } := by
  obtain ⟨⟨selector, part⟩, hparts⟩ := Option.isSome_iff_exists.mp hf
  have hsteps : r.bind (invocationsOf (ps ++ [trim t])) = r.bind (invocationsOf ps) ++ (r.stepOf? t).toList := by
    rw [invocationsOf_append, ← bind_invocationsOf_singleton]
    exact List.filterMap_append
  simp only [readPieces, hparts, hsteps, Query.withStep]

end

/-! ## Asking -/

/-- Whether the field of an expression, which stands in front of its filters, matches the pattern of a dialect. -/
def Dialect.Fits (d : Dialect) (e : String) : Prop :=
  ∃ f pieces, d.filterSeparator.split (trim e.toList) = some f :: pieces ∧ (d.selectorPattern.matchAt? f).isSome

theorem Dialect.fits_of_split {d : Dialect} {e : String} {f : List Char} {ps : List (Option (List Char))}
    (hsplit : d.filterSeparator.split (trim e.toList) = some f :: ps) :
    d.Fits e ↔ (d.selectorPattern.matchAt? f).isSome := by
  rw [Fits, hsplit]
  simp

/-- In the standard dialect the field is the first piece. -/
theorem Registry.fits_iff {r : Registry} {e : String} {f : List Char} {ps : List (List Char)}
    (h : pieces '|' e.toList = f :: ps) : r.dialect.Fits e ↔ (fieldParts f).isSome := by
  rw [dialect_eq, Dialect.fits_of_split (d := ⟨r, field, bar, ":"⟩) (split_trim_cons h), fieldParts, Option.isSome_map]

/-- A filter written behind an expression works on what the expression makes of an element, with the arguments written
to it; where nothing is written, or the filter is not known, nothing changes. What was asked for before plays no part. -/
theorem Registry.render_appended (r : Registry) (earlier later : List String) {e t : String} (he : r.dialect.Fits e)
    (ht : '|' ∉ t.toList) :
    let i := Invocation.read ":" (trimmed t)
    ∃ q q', (r.dialect.ask (r.dialect.askAll earlier) e).1.map (·.query) = .ok q
      ∧ (r.dialect.ask (r.dialect.askAll later) (e ++ "|" ++ t)).1.map (·.query) = .ok q'
      ∧ ∀ el : Element, q'.render el =
          if allBlank t.toList then q.render el else
          match r.find? i.name with
          | none => q.render el
          | some f => q.render el >>= fun v => f.run v i.args := by
  obtain ⟨f, ps, hpieces, hread⟩ := r.exists_read_eq e
  have hbar : (e ++ "|" ++ t).toList = e.toList ++ '|' :: t.toList := by simp
  have hpieces' : pieces '|' (e ++ "|" ++ t).toList = f :: (ps ++ [trim t.toList]) := by
    rw [hbar, pieces_between, hpieces, pieces_of_not_mem ht, List.cons_append]
  have hf := (fits_iff hpieces).mp he
  refine ⟨(r.readPieces e f ps).1, (r.readPieces (e ++ "|" ++ t) f (ps ++ [trim t.toList])).1, ?_, ?_, fun el => ?_⟩
  · rw [(r.dialect.askAll_sound earlier).ask_query, hread]
    rfl
  · rw [(r.dialect.askAll_sound later).ask_query, r.read_eq _ hpieces']
    rfl
  · -- the expression that a query was read from is not rendered
    have hsame : ∀ q : Query, ({ q with expression := e ++ "|" ++ t } : Query).render el = q.render el := fun _ => rfl
    rw [readPieces_concat hf e, hsame, Query.render_withStep, stepOf?]
    by_cases hblank : allBlank t.toList = true
    · simp only [if_pos hblank]
    · simp only [if_neg hblank, Registry.bind?, trimmed]
      cases r.find? (Invocation.read ":" (String.ofList (trim t.toList))).name <;> rfl

/-- Behind a quotation that is not closed and blanks, a filter is a filter of its own. -/
theorem Registry.render_appended_sample :
    let e := "a[href] | trim | x:'y  "
    let t := " prefix:'to: ' "
    Filter.standard.dialect.Fits e ∧ '|' ∉ t.toList
      ∧ ∃ q q', (Filter.standard.dialect.ask (Filter.standard.dialect.askAll []) e).1.map (·.query) = .ok q
        ∧ (Filter.standard.dialect.ask (Filter.standard.dialect.askAll [e]) (e ++ "|" ++ t)).1.map (·.query) = .ok q'
        ∧ ∀ el : Element, q'.render el = q.render el >>= fun v => Filter.prefixed.run v ["to: "] := by
  have hpieces : pieces '|' "a[href] | trim | x:'y  ".toList = "a[href]".toList :: ["trim".toList, "x:'y".toList] := by
    decide
  have he : Filter.standard.dialect.Fits "a[href] | trim | x:'y  " := by
    rw [fits_iff hpieces]
    decide +kernel
  have ht : '|' ∉ " prefix:'to: ' ".toList := by decide
  obtain ⟨q, q', hq, hq', hrender⟩ := render_appended Filter.standard [] ["a[href] | trim | x:'y  "] he ht
  refine ⟨he, ht, q, q', hq, hq', fun el => ?_⟩
  rw [hrender el]
  rfl

end Harvest
