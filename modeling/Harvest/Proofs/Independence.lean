import Harvest.Proofs.Meaning
import Harvest.Proofs.Memo

/-
  Calls of one extractor do not depend on each other.

  A session keeps a memo of the queries read so far, and the invariant is that the memo is sound. `Work.Means d w r`
  says that work `w`, begun in any session with a sound memo, comes to the result `r` and leaves the memo sound, also
  where it ends in a fault. It is kept by every step (`Means.bind`), so it follows the schema down:
    1. `extract_means` and its companions — working a schema gives what the schema means.
    2. `result_after` — so does a call, from every extractor that earlier calls may leave behind.
  In the end each call of a row answers as it would alone.
-/
namespace Harvest
open Markup

/-! ## Work and what it means -/

/-- Work comes to a result from every session with a sound memo, and leaves a sound memo. -/
def Work.Means {α : Type} (d : Dialect) (w : Work α) (r : Except Fault α) : Prop :=
  ∀ s : Session, s.memo.Sound d → (w.run.run s).1 = r ∧ (w.run.run s).2.memo.Sound d

namespace Work

theorem run_bind {α β : Type} (w : Work α) (f : α → Work β) (s : Session) :
    (w >>= f).run.run s =
      match w.run.run s with
      | (.ok a, t) => (f a).run.run t
      | (.error e, t) => (.error e, t) := by
  change StateT.run (StateT.bind w (ExceptT.bindCont f)) s = _
  simp only [StateT.run, StateT.bind, ExceptT.run]
  rcases hw : w s with ⟨_ | a, t⟩ <;> rfl

namespace Means
variable {α β : Type} {d : Dialect}

theorem pure' (a : α) : Means d (pure a) (.ok a) := fun _ hs => ⟨rfl, hs⟩

theorem throw' (f : Fault) : Means d (throw f : Work α) (.error f) := fun _ hs => ⟨rfl, hs⟩

theorem bind {w : Work α} {f : α → Work β} {r : Except Fault α} {g : α → Except Fault β} (hw : Means d w r)
    (hf : ∀ a, Means d (f a) (g a)) : Means d (w >>= f) (r >>= g) := by
  intro s hs
  obtain ⟨hr, ht⟩ := hw s hs
  rw [run_bind]
  -- after a fault nothing more is done, and the memo is as the first work left it
  rcases hrun : w.run.run s with ⟨_ | a, t⟩
  · rw [hrun] at hr ht
    subst hr
    exact ⟨rfl, ht⟩
  · rw [hrun] at hr ht
    subst hr
    exact hf a t ht

/-- What is made of a result at the end cannot fail. -/
theorem bind_pure {w : Work α} {r : Except Fault α} (hw : Means d w r) (f : α → β) :
    Means d (w >>= fun a => pure (f a)) (r >>= fun a => pure (f a)) := by
  apply hw.bind
  intro a
  exact pure' (f a)

theorem report (es : List Event) : Means d (Work.report es) (.ok ()) := fun _ hs => ⟨rfl, hs⟩

/-- A report in front changes no result. -/
theorem report_bind {es : List Event} {w : Work α} {r : Except Fault α} (hw : Means d w r) :
    Means d (Work.report es >>= fun _ => w) r := bind (report es) fun _ => hw

theorem found (r : Scope.Search α) : Means d (Work.found r) (Meaning.found r) := by
  rcases r with f | ⟨a, es⟩
  · exact throw' _
  · exact report_bind (pure' a)

theorem render (q : Query) (e : Element) : Means d (Work.render q e) (Meaning.render q e) := by
  unfold Work.render Meaning.render
  cases q.render e with
  | ok v => exact pure' v
  | error f => exact throw' _

theorem compile (v : Value) : Means d (Work.compile v) (Meaning.compile v) := by
  unfold Work.compile Meaning.compile
  cases Schema.compile v with
  | ok s => exact pure' s
  | error f => exact throw' _

theorem decision (r : Option (Except Fault (Outcome α))) : Means d (Work.decision r) (Meaning.decision r) := by
  rcases r with _ | _ | o
  · exact pure' _
  · exact throw' _
  · exact pure' o

end Means
end Work

open Work

/-! ## Queries -/

namespace Engine
variable (x : Engine)

/-- What asking does to a session: it takes over the memo, unless the query cannot be read. -/
theorem run_ask (e : String) (s : Session) :
    (x.ask e).run.run s =
      match x.dialect.ask s.memo e with
      | (.error f, _) => (.error (.query f), s)
      | (.ok a, m) => (.ok a.query, { s with memo := m, log := s.log ++ a.events }) := by
  unfold Engine.ask
  rw [run_bind]
  have hget : (get : Work Session).run.run s = (.ok s, s) := rfl
  simp only [hget]
  rcases x.dialect.ask s.memo e with ⟨f | a, m⟩
  · rfl
  · rfl

/-- Asking gives the query that reading gives, and keeps the memo sound, whether or not the query can be read. -/
theorem ask_means (e : String) : Means x.dialect (x.ask e) (Meaning.query x e) := by
  intro s hs
  have hquery : Meaning.query x e = ((x.dialect.ask s.memo e).1.map (·.query)).mapError Fault.query := by
    rw [hs.ask_query e, Meaning.query]
    cases x.dialect.read e <;> rfl
  have hsound := hs.ask_sound e
  rw [run_ask, hquery]
  rcases ha : x.dialect.ask s.memo e with ⟨f | a, m⟩
  · exact ⟨rfl, hs⟩
  · rw [ha] at hsound
    exact ⟨rfl, hsound⟩

variable {d : Dialect}

theorem renderAll_means (q : Query) : ∀ es : List Element, Means d (renderAll q es) (es.mapM (Meaning.render q))
  | [] => Means.pure' _
  | e :: es => by
    rw [List.mapM_cons]
    apply Means.bind (Means.render q e)
    intro v
    exact (renderAll_means q es).bind_pure _

theorem forEach_means {f : Scope → Work Value} {g : Element → Except Fault Value}
    (hf : ∀ e, Means d (f (.of e)) (g e)) : ∀ es : List Element, Means d (forEach f es) (es.mapM g)
  | [] => Means.pure' _
  | e :: es => by
    rw [List.mapM_cons]
    apply Means.bind (hf e)
    intro v
    exact (forEach_means hf es).bind_pure _

variable [Css.Library]

theorem findOne_means (scope : Scope) (q : Query) : Means d (findOne scope q) (Meaning.findOne scope q) := by
  unfold findOne Meaning.findOne
  cases q.selector with
  | none => exact Means.pure' _
  | some s => exact Means.found _

theorem findMany_means (scope : Scope) (q : Query) : Means d (findMany scope q) (Meaning.findMany scope q) := by
  unfold findMany Meaning.findMany
  cases q.selector with
  | none => exact Means.pure' _
  | some s => exact Means.found _

theorem takeOne_means (scope : Scope) (q : Query) : Means d (takeOne scope q) (Meaning.takeOne scope q) := by
  apply Means.bind (findOne_means scope q)
  intro e?
  cases e? with
  | none => exact Means.pure' _
  | some e => exact Means.render q e

theorem single_means (e : String) (scope : Scope) : Means x.dialect (x.single e scope) (Meaning.single x e scope) := by
  apply Means.bind (x.ask_means e)
  intro q
  apply Means.bind (Means.decision _)
  intro o
  cases o with
  | content v => exact Means.pure' v
  | unchanged => exact takeOne_means scope q
  | replaced r => exact takeOne_means scope r

theorem plural_means (e : String) (scope : Scope) : Means x.dialect (x.plural e scope) (Meaning.plural x e scope) := by
  apply Means.bind (x.ask_means e)
  intro q
  apply Means.bind (findMany_means scope q)
  intro s
  exact renderAll_means q s.elements

/-! ## Mappings -/

theorem narrow_means (root : Option String) (scope : Scope) :
    Means d (narrow root scope) (Meaning.narrow root scope) := by
  cases root with
  | none => exact Means.pure' _
  | some r =>
    apply Means.bind (Means.found _)
    intro e?
    cases e? with
    | none => exact Means.report_bind (Means.pure' _)
    | some e => exact Means.pure' _

section
variable {fill : Scope → Work Value.Record} {fill' : Scope → Except Fault Value.Record}
variable {expand : Expansion} {expand' : Meaning.Expansion}

theorem filled_means (hfill : ∀ s, Means d (fill s) (fill' s)) (root : Option String) (scope : Scope) :
    Means d (filled root fill scope) (Meaning.filled root fill' scope) := by
  apply Means.bind (narrow_means root scope)
  intro s
  exact (hfill s).bind_pure _

theorem single?_means (hexpand : ∀ v s, Means d (expand v s) (expand' v s)) (hfill : ∀ s, Means d (fill s) (fill' s))
    (source : Entries) (root : Option String) (scope : Scope) :
    Means d (x.single? expand source root fill scope) (Meaning.one x expand' source root fill' scope) := by
  apply Means.bind (Means.decision _)
  intro o
  cases o with
  | content v => exact Means.pure' v
  | replaced v => exact hexpand v scope
  | unchanged => exact filled_means hfill root scope

theorem records_means (hexpand : ∀ v s, Means d (expand v s) (expand' v s)) (hfill : ∀ s, Means d (fill s) (fill' s))
    (source : Entries) (root : String) (scope : Scope) :
    Means d (x.records expand source root fill scope) (Meaning.records x expand' source root fill' scope) := by
  apply Means.bind (Means.found _)
  intro s
  exact forEach_means (fun e => x.single?_means hexpand hfill _ none (.of e)) s.elements

end
end Engine

/-! ## Schemas -/

section
variable [Css.Library] {x : Engine} {expand : Expansion} {expand' : Meaning.Expansion}

mutual

/-- Working a schema through a scope gives what the schema means there. -/
theorem extract_means (hexpand : ∀ v s, Means x.dialect (expand v s) (expand' v s)) (scope : Scope) :
    ∀ s : Compiled, Means x.dialect (s.extract x expand scope) (Meaning.value x expand' scope s)
  | .text e => x.single_means e scope
  | .mapping (.mk root fs source) => x.single?_means hexpand (fun s => fieldsOf_means hexpand s fs) source root scope
  | .list is => (itemsOf_means hexpand scope is).bind_pure _

theorem fieldsOf_means (hexpand : ∀ v s, Means x.dialect (expand v s) (expand' v s)) (scope : Scope) :
    ∀ fs : List (String × Compiled), Means x.dialect (fieldsOf x expand scope fs) (Meaning.fields x expand' scope fs)
  | [] => Means.pure' _
  | (_, s) :: fs => by
    apply Means.bind (extract_means hexpand scope s)
    intro v
    exact (fieldsOf_means hexpand scope fs).bind_pure _

theorem itemsOf_means (hexpand : ∀ v s, Means x.dialect (expand v s) (expand' v s)) (scope : Scope) :
    ∀ is : List (Item Entries), Means x.dialect (itemsOf x expand scope is) (Meaning.items x expand' scope is)
  | [] => Means.pure' _
  | .text e :: is => by
    apply Means.bind (x.plural_means e scope)
    intro vs
    exact (itemsOf_means hexpand scope is).bind_pure _
  | .mapping (.mk (some r) fs source) :: is => by
    apply Means.bind (x.records_means hexpand (fun s => fieldsOf_means hexpand s fs) source r scope)
    intro vs
    exact (itemsOf_means hexpand scope is).bind_pure _
  | .mapping (.mk none fs _) :: is => by
    apply Means.bind (columnsOf_means hexpand scope fs)
    intro cs
    exact (itemsOf_means hexpand scope is).bind_pure _

theorem columnsOf_means (hexpand : ∀ v s, Means x.dialect (expand v s) (expand' v s)) (scope : Scope) :
    ∀ fs : List (String × Compiled), Means x.dialect (columnsOf x expand scope fs) (Meaning.columns x expand' scope fs)
  | [] => Means.pure' _
  | (_, .text e) :: fs => by
    apply Means.bind (x.plural_means e scope)
    intro vs
    exact (columnsOf_means hexpand scope fs).bind_pure _
  | (_, .mapping (.mk (some r) gs source)) :: fs => by
    apply Means.bind (x.records_means hexpand (fun s => fieldsOf_means hexpand s gs) source r scope)
    intro vs
    exact (columnsOf_means hexpand scope fs).bind_pure _
  | (_, .mapping (.mk none gs _)) :: fs => by
    apply Means.bind (columnsOf_means hexpand scope gs)
    intro cs
    exact (columnsOf_means hexpand scope fs).bind_pure _
  | (_, .list _) :: fs => by
    apply Means.report_bind
    exact (columnsOf_means hexpand scope fs).bind_pure _

end
end

namespace Engine
variable [Css.Library] (x : Engine)

/-- Also what hooks put in place of mappings is worked through as it is meant, by induction on how deep it stands. -/
theorem expanding_means (v : Value) : ∀ (n : Nat) (scope : Scope),
    Means x.dialect (x.expanding n v scope) (Meaning.expanding x n v scope) := by
  intro n
  induction n generalizing v with
  | zero => intro scope; exact Means.throw' _
  | succ n ih =>
    intro scope
    have hexpand : ∀ w s, Means x.dialect (x.expanding n w s) (Meaning.expanding x n w s) := fun w s => ih w s
    apply Means.bind (Means.compile v)
    intro s
    match s with
    | .text e => exact extract_means hexpand scope _
    | .list is => exact extract_means hexpand scope _
    | .mapping (.mk root fs _) => exact filled_means (fun s => fieldsOf_means hexpand s fs) root scope

theorem resolve_means (schema : Value) (scope : Scope) :
    Means x.dialect (x.resolve schema scope) (Meaning.resolve x schema scope) := by
  apply Means.bind (Means.compile schema)
  intro s
  exact extract_means (fun v scope => x.expanding_means v (s.depth + deepest) scope) scope s

end Engine

/-! ## Calls -/

/-- A call of an extractor: a schema, and a scope if one is given. -/
structure Call where
  schema : Value
  scope : Option Scope := none

namespace Extractor

/-- The extractor of a page and options, nothing having been asked. -/
def fresh (page : Element) (options : Options) : Extractor := { page, options }

/-- The memo of an extractor is sound for its dialect. -/
def Sound (x : Extractor) : Prop := x.memo.Sound x.options.dialect

theorem fresh_sound (page : Element) (o : Options) : (fresh page o).Sound := Memo.sound_nil _

variable [Css.Library]

/-- What a call comes to. -/
def result (x : Extractor) (schema : Value) (scope : Option Scope) : Except Fault Value :=
  (x.call schema scope).1.result

/-- What an extractor answers to calls, one after the other. -/
def answers : Extractor → List Call → List Answer
  | _, [] => []
  | x, c :: cs =>
    let (a, y) := x.call c.schema c.scope
    a :: y.answers cs

/-- The extractor that calls leave behind. -/
def after (x : Extractor) (calls : List Call) : Extractor :=
  calls.foldl (fun x c => (x.call c.schema c.scope).2) x

variable {x : Extractor}

/-- A call changes neither the page nor the options, and keeps the memo sound. -/
theorem call_kept (hx : x.Sound) (schema : Value) (scope : Option Scope) :
    (x.call schema scope).2.page = x.page ∧ (x.call schema scope).2.options = x.options
      ∧ (x.call schema scope).2.Sound :=
  ⟨rfl, rfl, (x.options.engine.resolve_means schema (x.scopeOf scope) { memo := x.memo } hx).2⟩

/-- A call gives what its schema means. -/
theorem result_means (hx : x.Sound) (schema : Value) (scope : Option Scope) :
    x.result schema scope = Meaning.resolve x.options.engine schema (x.scopeOf scope) :=
  (x.options.engine.resolve_means schema (x.scopeOf scope) { memo := x.memo } hx).1

/-- What holds of an extractor before calls holds after them. -/
theorem after_kept (calls : List Call) (hx : x.Sound) :
    (x.after calls).page = x.page ∧ (x.after calls).options = x.options ∧ (x.after calls).Sound := by
  induction calls generalizing x with
  | nil => exact ⟨rfl, rfl, hx⟩
  | cons c cs ih =>
    obtain ⟨hp, ho, hs⟩ := call_kept hx c.schema c.scope
    obtain ⟨hp', ho', hs'⟩ := ih hs
    exact ⟨hp'.trans hp, ho'.trans ho, hs'⟩

/-- A call gives what its schema means, whatever was asked before. -/
theorem result_after (page : Element) (o : Options) (history : List Call) (schema : Value) (scope : Option Scope) :
    ((fresh page o).after history).result schema scope
      = Meaning.resolve o.engine schema (scope.getD (.of page)) := by
  obtain ⟨hp, ho, hs⟩ := after_kept history (fresh_sound page o)
  rw [result_means hs, ho, scopeOf, hp]
  rfl

theorem answers_results (calls : List Call) (hx : x.Sound) :
    (x.answers calls).map (·.result)
      = calls.map fun c => Meaning.resolve x.options.engine c.schema (x.scopeOf c.scope) := by
  induction calls generalizing x with
  | nil => rfl
  | cons c cs ih =>
    obtain ⟨hp, ho, hs⟩ := call_kept hx c.schema c.scope
    have hc : (x.call c.schema c.scope).1.result = _ := result_means hx c.schema c.scope
    simp only [answers, List.map_cons]
    rw [ih hs, hc, ho]
    simp only [scopeOf, hp]

/-- Calls are independent: in a row of calls on one extractor, those that fail among them, each comes to what it would
come to as the only call of a fresh extractor, and that is what its schema means without any memo. -/
theorem answers_independent (page : Element) (o : Options) (calls : List Call) :
    ((fresh page o).answers calls).map (·.result) = calls.map (fun c => (fresh page o).result c.schema c.scope)
      ∧ ∀ c : Call, (fresh page o).result c.schema c.scope
        = Meaning.resolve o.engine c.schema (c.scope.getD (.of page)) := by
  have hresult : ∀ c : Call, (fresh page o).result c.schema c.scope
      = Meaning.resolve o.engine c.schema (c.scope.getD (.of page)) :=
    fun c => result_means (fresh_sound page o) c.schema c.scope
  refine ⟨?_, hresult⟩
  rw [answers_results calls (fresh_sound page o)]
  exact List.map_congr_left fun c _ => (hresult c).symm

end Extractor
end Harvest
