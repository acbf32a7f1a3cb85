import Harvest.Proofs.Reading
import Harvest.Proofs.Shape
import Harvest.Proofs.Twin

/-
  What is not there is absent.

  In the standard dialect every text reads as a query. What a query or a root does not find is no fault, and neither is
  a text that the library of selectors refuses as none: it finds nothing. Working a schema through a page ends with a
  fault in two ways only: a filter fails, or the library fails in another way with a text among the selectors of the
  schema (`Schema.selectors`). All this holds whatever the library is.
    1. `value_owed` — no other fault comes from a schema. The induction is on the schema, one case for each way to make
       records, fields and columns.
    2. `value_barren` — whatever finds nothing anywhere, be it a selector or not, can stand for whatever else finds
       nothing (`Css.Barren`).
-/
namespace Harvest
open Markup

/-! ## Selectors of a schema -/

/-- The selector of an expression, if it has one. -/
def Dialect.selectorOf? (d : Dialect) (e : String) : Option String :=
  match d.read e with
  | .ok (q, _) => q.selector
  | .error _ => none

section
variable (d : Dialect)

mutual

/-- The texts that a schema uses as selectors: those of its expressions, and its roots. -/
def Schema.selectors : Compiled → List String
  | .text e => (d.selectorOf? e).toList
  | .mapping (.mk root fs _) => root.toList ++ selectorsOfFields fs
  | .list is => selectorsOfItems is

/-- The same of fields. -/
def selectorsOfFields : List (String × Compiled) → List String
  | [] => []
  | (_, s) :: fs => s.selectors ++ selectorsOfFields fs

/-- The same of items. -/
def selectorsOfItems : List (Item Entries) → List String
  | [] => []
  | .text e :: is => (d.selectorOf? e).toList ++ selectorsOfItems is
  | .mapping (.mk root fs _) :: is => root.toList ++ selectorsOfFields fs ++ selectorsOfItems is

end
end

namespace Meaning
variable {x : Engine} {e : String}

/-- The selector of a query is that of its expression. -/
theorem selectorOf?_eq {q : Query} (h : query x e = .ok q) : x.dialect.selectorOf? e = q.selector := by
  unfold query at h
  split at h
  · next p events hread =>
    cases h
    rw [Dialect.selectorOf?, hread]
  · cases h

theorem query_selector {t : String} (h : x.dialect.selectorOf? e = some t) :
    ∃ q, query x e = .ok q ∧ q.selector = some t := by
  rw [Dialect.selectorOf?] at h
  split at h
  · next q events hread => exact ⟨q, by rw [query, hread], h⟩
  · cases h

/-- An engine of the standard dialect without hooks. -/
structure Standard (x : Engine) : Prop where
  dialect : x.dialect = x.dialect.filters.dialect
  queryHook : x.queryHook = none
  mappingHook : x.mappingHook = none

theorem query_total (hx : Standard x) (e : String) : ∃ q, query x e = .ok q := by
  obtain ⟨f, ps, -, hread⟩ := x.dialect.filters.exists_read_eq e
  exact ⟨_, by rw [query, hx.dialect, hread]⟩

end Meaning

/-! ## Faults -/

section
variable [Css.Library]

/-- The faults of the library with a text: of reading it, and of looking for what it selects in an element. -/
inductive Css.Library.Fails (t : String) : Css.Fault → Prop where
  | read {f : Css.Fault} (h : Library.read t = .error f) : Fails t f
  | all {g : Finder} {e : Element} {f : Css.Fault} (hread : Library.read t = .ok g) (h : g.all e = .error f) : Fails t f
  | first {g : Finder} {e : Element} {f : Css.Fault} (hread : Library.read t = .ok g) (h : g.first? e = .error f) :
      Fails t f

/-- The faults that filters of a registry and selectors among texts can have. -/
inductive Fault.Owed (r : Registry) (texts : List String) : Fault → Prop where
  | filter {p : String × Filter} {v : Value} {args : List String} {f : FilterFault} (hp : p ∈ r)
      (hrun : p.2.run v args = .error f) : Owed r texts (.filter f)
  | selector {t : String} {f : Css.Fault} (ht : t ∈ texts) (hfails : Css.Library.Fails t f) (hf : f ≠ .invalid) :
      Owed r texts (.selector f)

namespace Meaning
variable {x : Engine} {r : Registry} {texts : List String} {expand : Expansion}

theorem search_owed {α : Type} {t : String} (ht : t ∈ texts) (scope : Scope) (nothing : α)
    {find : Css.Finder → Except Css.Fault α}
    (hfind : ∀ g, Css.Library.read t = .ok g → FailsOnly (Css.Library.Fails t) (find g)) :
    FailsOnly (Fault.Owed r texts) (found (scope.search t nothing find)) := by
  have hfails : FailsOnly (Css.Library.Fails t) (Css.Library.read t >>= find) := .bind (fun _ h => .read h) hfind
  rw [Scope.search]
  split
  · exact .ok nothing
  · split
    · next a _ => exact .ok a
    · exact .ok nothing
    · next f hinvalid hf =>
      rintro _ ⟨⟩
      exact .selector ht (hfails f hf) hinvalid

theorem findFirst?_owed {t : String} (ht : t ∈ texts) (scope : Scope) :
    FailsOnly (Fault.Owed r texts) (found (scope.findFirst? t)) :=
  search_owed ht scope none fun _ hread => .findSomeM? fun _ _ _ h => .first hread h

theorem findAll_owed {t : String} (ht : t ∈ texts) (scope : Scope) :
    FailsOnly (Fault.Owed r texts) (found (scope.findAll t)) :=
  search_owed ht scope Scope.empty fun _ hread => .bind (.mapM fun _ _ _ h => .all hread h) fun _ _ => .ok _

theorem runSteps_owed {ss : List Step} (hs : ∀ s ∈ ss, ∃ n, (n, s.filter) ∈ r) (v : Value) {f : FilterFault}
    (h : runSteps v ss = .error f) : Fault.Owed r texts (.filter f) := by
  induction ss generalizing v with
  | nil => cases h
  | cons s ss ih =>
    rw [runSteps] at h
    split at h
    · next w _ => exact ih (fun t ht => hs t (List.mem_cons_of_mem s ht)) w h
    · next g hrun =>
      cases h
      obtain ⟨n, hn⟩ := hs s List.mem_cons_self
      exact .filter hn hrun

theorem filled_owed {root : Option String} (hroot : root.toList ⊆ texts) {fill : Scope → Except Fault Value.Record}
    (hfill : ∀ s, FailsOnly (Fault.Owed r texts) (fill s)) (scope : Scope) :
    FailsOnly (Fault.Owed r texts) (filled root fill scope) := by
  rw [filled]
  refine .bind ?_ fun s _ => .bind (hfill s) fun fs _ => .ok _
  cases root with
  | none => exact .ok scope
  | some t => exact .bind (findFirst?_owed (hroot (List.mem_singleton_self t)) scope) fun el? _ => .ok _

theorem render_owed {e : String} {q : Query} (h : query x e = .ok q) (el : Element) :
    FailsOnly (Fault.Owed x.dialect.filters texts) (render q el) := by
  intro f hf
  unfold render Query.render at hf
  split at hf
  · cases hf
  · next g hrun =>
    cases hf
    exact runSteps_owed (query_steps h) _ hrun

section
variable (hx : Standard x)
include hx

theorem single_owed {e : String} (he : (x.dialect.selectorOf? e).toList ⊆ texts) (scope : Scope) :
    FailsOnly (Fault.Owed x.dialect.filters texts) (single x e scope) := by
  obtain ⟨q, hq⟩ := query_total hx e
  rw [selectorOf?_eq hq] at he
  rw [single_eq hx.queryHook, hq, ok_bind, takeOne, findOne]
  refine .bind ?_ fun el? _ => ?_
  · cases hselector : q.selector with
    | none => exact .ok _
    | some t => exact findFirst?_owed (he (by simp [hselector])) scope
  · cases el? with
    | none => exact .ok _
    | some el => exact render_owed hq el

theorem plural_owed {e : String} (he : (x.dialect.selectorOf? e).toList ⊆ texts) (scope : Scope) :
    FailsOnly (Fault.Owed x.dialect.filters texts) (plural x e scope) := by
  obtain ⟨q, hq⟩ := query_total hx e
  rw [selectorOf?_eq hq] at he
  rw [plural, hq, ok_bind, findMany]
  refine .bind ?_ fun s _ => .mapM fun el _ => render_owed hq el
  cases hselector : q.selector with
  | none => exact .ok _
  | some t => exact findAll_owed (he (by simp [hselector])) scope

theorem records_owed {root : String} (hroot : [root] ⊆ texts) {fill : Scope → Except Fault Value.Record}
    (hfill : ∀ s, FailsOnly (Fault.Owed x.dialect.filters texts) (fill s)) (source : Entries) (scope : Scope) :
    FailsOnly (Fault.Owed x.dialect.filters texts) (records x expand source root fill scope) := by
  rw [records_eq hx.mappingHook]
  refine .bind (findAll_owed (hroot (List.mem_singleton_self root)) scope) fun s _ => .mapM fun el _ => ?_
  exact filled_owed (List.nil_subset texts) hfill _

end

mutual

/-- A schema fails by a filter or by one of its selectors only. -/
theorem value_owed (hx : Standard x) : ∀ {s : Compiled}, s.selectors x.dialect ⊆ texts → ∀ scope,
    FailsOnly (Fault.Owed x.dialect.filters texts) (value x expand scope s)
  | .text e, hs, scope => by
    rw [value]
    exact single_owed hx hs scope
  | .mapping (.mk root fs source), hs, scope => by
    obtain ⟨hroot, hfs⟩ := List.append_subset.mp hs
    rw [value_mapping hx.mappingHook]
    exact filled_owed hroot (fields_owed hx hfs) scope
  | .list is, his, scope => by
    rw [value]
    exact .bind (items_owed hx his scope) fun vs _ => .ok _

theorem fields_owed (hx : Standard x) : ∀ {fs : List (String × Compiled)}, selectorsOfFields x.dialect fs ⊆ texts →
    ∀ scope, FailsOnly (Fault.Owed x.dialect.filters texts) (fields x expand scope fs)
  | [], _, scope => by
    rw [fields]
    exact .ok []
  | (k, s) :: fs, h, scope => by
    obtain ⟨hs, hfs⟩ := List.append_subset.mp h
    rw [fields]
    exact .bind (value_owed hx hs scope) fun v _ => .bind (fields_owed hx hfs scope) fun rest _ => .ok _

theorem items_owed (hx : Standard x) : ∀ {is : List (Item Entries)}, selectorsOfItems x.dialect is ⊆ texts →
    ∀ scope, FailsOnly (Fault.Owed x.dialect.filters texts) (items x expand scope is)
  | [], _, scope => by
    rw [items]
    exact .ok []
  | .text e :: is, h, scope => by
    obtain ⟨he, his⟩ := List.append_subset.mp h
    rw [items]
    exact .bind (plural_owed hx he scope) fun vs _ => .bind (items_owed hx his scope) fun rest _ => .ok _
  | .mapping (.mk (some r) fs source) :: is, h, scope => by
    obtain ⟨hmapping, his⟩ := List.append_subset.mp h
    obtain ⟨hroot, hfs⟩ := List.append_subset.mp hmapping
    rw [items]
    refine .bind (records_owed hx hroot (fields_owed hx hfs) source scope) fun vs _ => ?_
    exact .bind (items_owed hx his scope) fun rest _ => .ok _
  | .mapping (.mk none fs source) :: is, h, scope => by
    obtain ⟨hfs, his⟩ := List.append_subset.mp h
    rw [items]
    exact .bind (columns_owed hx hfs scope) fun cs _ => .bind (items_owed hx his scope) fun rest _ => .ok _

theorem columns_owed (hx : Standard x) : ∀ {fs : List (String × Compiled)}, selectorsOfFields x.dialect fs ⊆ texts →
    ∀ scope, FailsOnly (Fault.Owed x.dialect.filters texts) (columns x expand scope fs)
  | [], _, scope => by
    rw [columns]
    exact .ok []
  | (k, .text e) :: fs, h, scope => by
    obtain ⟨he, hfs⟩ := List.append_subset.mp h
    rw [columns]
    exact .bind (plural_owed hx he scope) fun vs _ => .bind (columns_owed hx hfs scope) fun rest _ => .ok _
  | (k, .mapping (.mk (some r) gs source)) :: fs, h, scope => by
    obtain ⟨hmapping, hfs⟩ := List.append_subset.mp h
    obtain ⟨hroot, hgs⟩ := List.append_subset.mp hmapping
    rw [columns]
    refine .bind (records_owed hx hroot (fields_owed hx hgs) source scope) fun vs _ => ?_
    exact .bind (columns_owed hx hfs scope) fun rest _ => .ok _
  | (k, .mapping (.mk none gs source)) :: fs, h, scope => by
    obtain ⟨hgs, hfs⟩ := List.append_subset.mp h
    rw [columns]
    exact .bind (columns_owed hx hgs scope) fun cs _ => .bind (columns_owed hx hfs scope) fun rest _ => .ok _
  | (k, .list is) :: fs, h, scope => by
    -- a list makes no column, whatever its selectors are
    obtain ⟨-, hfs⟩ := List.append_subset.mp h
    rw [columns]
    exact .bind (columns_owed hx hfs scope) fun rest _ => .ok _

end

/-- A value that writes down a schema fails by a filter or by one of the selectors of the schema only. -/
theorem resolve_owed (hx : Standard x) {v : Value} {s : Compiled} (hs : Schema.compile v = .ok s) (scope : Scope) :
    FailsOnly (Fault.Owed x.dialect.filters (s.selectors x.dialect)) (resolve x v scope) := by
  rw [resolve_ok hs]
  exact value_owed hx (List.Subset.refl _) scope

end Meaning

/-! ## Texts that find nothing -/

/-- A text that finds nothing in any element: no selector, or one that nothing matches. -/
def Css.Barren (t : String) : Prop :=
  match Library.read t with
  | .ok f => ∀ e, f.all e = .ok [] ∧ f.first? e = .ok none
  | .error f => f = .invalid

/-- An expression whose selector finds nothing. -/
def Dialect.Barren (d : Dialect) (e : String) : Prop := ∃ t, d.selectorOf? e = some t ∧ Css.Barren t

/-- One text that finds nothing in place of another, anywhere in a schema. -/
def Changes.barren (d : Dialect) : Changes where
  expression := fun e e' => e = e' ∨ d.Barren e ∧ d.Barren e'
  root := fun r r' => r = r' ∨ Css.Barren r ∧ Css.Barren r'
  kept := fun _ => True

namespace Css.Barren
variable {t : String}

/-- A search comes to nothing if it does so with every selector that nothing matches. -/
theorem search {α : Type} (h : Barren t) (scope : Scope) {nothing : α} {find : Finder → Except Fault α}
    (hfind : ∀ f, (∀ e, f.all e = .ok [] ∧ f.first? e = .ok none) → find f = .ok nothing) :
    Meaning.found (scope.search t nothing find) = .ok nothing := by
  rw [Scope.search]
  unfold Barren at h
  split
  · rfl
  · cases hread : Library.read t with
    | ok g =>
      rw [hread] at h
      rw [ok_bind, hfind g h]
      rfl
    | error f =>
      rw [hread] at h
      subst h
      rfl

theorem findAll (h : Barren t) (scope : Scope) : Meaning.found (scope.findAll t) = .ok .empty := by
  refine h.search scope fun f hf => ?_
  have hall : scope.elements.mapM f.all = .ok (scope.elements.map fun _ => []) := mapM_ok fun e _ => (hf e).1
  have hnone : (scope.elements.map fun _ => ([] : List Element)).flatten = [] := by simp
  rw [hall, ok_bind, hnone]
  rfl

theorem findFirst? (h : Barren t) (scope : Scope) : Meaning.found (scope.findFirst? t) = .ok none := by
  refine h.search scope fun f hf => ?_
  have hnone : scope.elements.findSome? (fun _ => (none : Option Element)) = none := by simp
  rw [findSomeM?_ok fun e _ => (hf e).2, hnone]

end Css.Barren

namespace Meaning
variable {x : Engine} {e : String} {expand : Expansion}

theorem single_barren (hx : x.queryHook = none) (h : x.dialect.Barren e) (scope : Scope) :
    single x e scope = .ok .null := by
  obtain ⟨t, ht, hbarren⟩ := h
  obtain ⟨q, hq, hselector⟩ := query_selector ht
  rw [single_eq hx, hq, ok_bind, takeOne, findOne, hselector]
  simp only [hbarren.findFirst?, ok_bind, pure_eq_ok]

theorem plural_barren (h : x.dialect.Barren e) (scope : Scope) : plural x e scope = .ok [] := by
  obtain ⟨t, ht, hbarren⟩ := h
  obtain ⟨q, hq, hselector⟩ := query_selector ht
  rw [plural, hq, ok_bind, findMany, hselector]
  simp only [hbarren.findAll, ok_bind]
  rfl

/-- What finds nothing can stand for whatever else finds nothing. -/
theorem value_barren (hx : x.queryHook = none) (hm : x.mappingHook = none) {s t : Compiled}
    (h : s.Twin (.barren x.dialect) .one t) (scope : Scope) : value x expand scope s = value x expand scope t := by
  have hsame : Indifferent (.barren x.dialect) x expand x expand :=
    { single := by
        rintro e e' (rfl | ⟨he, he'⟩) scope
        · rfl
        · rw [single_barren hx he, single_barren hx he']
      plural := by
        rintro e e' (rfl | ⟨he, he'⟩) scope
        · rfl
        · rw [plural_barren he, plural_barren he']
      first := by
        rintro r r' (rfl | ⟨hr, hr'⟩) scope
        · rfl
        · rw [hr.findFirst?, hr'.findFirst?]
      all := by
        rintro r r' (rfl | ⟨hr, hr'⟩) scope
        · rfl
        · rw [hr.findAll, hr'.findAll]
      kept := fun _ => leaves_of_none hm _
      instead := fun hs => hs.elim
      unhooked := hm }
  exact value_twin hsame h scope

theorem resolve_barren (hx : x.queryHook = none) (hm : x.mappingHook = none) {v v' : Value} {s t : Compiled}
    (hs : Schema.compile v = .ok s) (ht : Schema.compile v' = .ok t) (h : s.Twin (.barren x.dialect) .one t)
    (scope : Scope) : resolve x v scope = resolve x v' scope := by
  rw [resolve_ok hs, resolve_ok ht, value_expand hm _ (expanding x 0), value_expand (s := t) hm _ (expanding x 0)]
  exact value_barren hx hm h scope

end Meaning

end

/-! ## Calls -/

theorem Options.standard_engine {o : Options} {r : Registry} (ho : o.dialect = r.dialect) (hq : o.queryHook = none)
    (hm : o.mappingHook = none) : Meaning.Standard o.engine where
  dialect := by
    have hdialect : o.engine.dialect = r.dialect := ho
    rw [hdialect]
    rfl
  queryHook := by simp [engine, hq]
  mappingHook := by simp [engine, hm]

/-- In the standard dialect, without hooks and with filters that never fail, a call comes to a value, or to a fault of the
library of selectors with one of the selectors of the schema, other than that the text is none. And a text that is none
can stand for whatever else finds nothing. -/
theorem Extractor.result_absent [Css.Library] (page : Element) {o : Options} {r : Registry} (ho : o.dialect = r.dialect)
    (hq : o.queryHook = none) (hm : o.mappingHook = none) (hr : ∀ p ∈ r, ∀ v args, ∃ w, p.2.run v args = .ok w)
    (history : List Call) {v : Value} {s : Compiled} (hs : Schema.compile v = .ok s) (scope : Option Scope) :
    let answer := ((fresh page o).after history).result v scope
    ((∃ w, answer = .ok w) ∨ ∃ t ∈ s.selectors r.dialect, ∃ f, Css.Library.Fails t f ∧ f ≠ .invalid ∧
        answer = .error (.selector f)) ∧
      ∀ {v' : Value} {t : Compiled}, Schema.compile v' = .ok t → s.Twin (.barren r.dialect) .one t →
        ((fresh page o).after history).result v' scope = answer := by
  have hdialect : o.engine.dialect = r.dialect := ho
  have hx : Meaning.Standard o.engine := Options.standard_engine ho hq hm
  simp only [result_after]
  refine ⟨?_, ?_⟩
  · have howed := Meaning.resolve_owed hx hs (scope.getD (.of page))
    rw [hdialect] at howed
    cases hanswer : Meaning.resolve o.engine v (scope.getD (.of page)) with
    | ok w => exact .inl ⟨w, rfl⟩
    | error e =>
      cases howed e hanswer with
      | filter hp hrun =>
        obtain ⟨w, hw⟩ := hr _ hp _ _
        rw [hrun] at hw
        cases hw
      | selector ht hfails hf => exact .inr ⟨_, ht, _, hfails, hf, rfl⟩
  · intro v' t hv' htwin
    rw [← hdialect] at htwin
    exact (Meaning.resolve_barren hx.queryHook hx.mappingHook hs hv' htwin _).symm

namespace Sample

/-- The standard options, without filters. -/
def plain : Options := ⟨Registry.dialect [], none, none⟩

/-- A text that reads as a selector and nothing else is the selector of the query. -/
theorem selectorOf?_of_selects {d : Dialect} {t : String} (h : selects t (d.read t) = true) :
    d.selectorOf? t = some t := by
  obtain ⟨events, hread⟩ := eq_of_selects h
  simp only [Dialect.selectorOf?, hread]

theorem selectorOf?_rejected : plain.dialect.selectorOf? "[[" = some "[[" :=
  selectorOf?_of_selects (by decide +kernel)

theorem selectorOf?_hovered : plain.dialect.selectorOf? ":hover" = some ":hover" :=
  selectorOf?_of_selects (by decide +kernel)

theorem selectorOf?_before : plain.dialect.selectorOf? "p::before" = some "p::before" :=
  selectorOf?_of_selects (by decide +kernel)

theorem read_rejected : Css.Library.read "[[" = .error .invalid := rfl

theorem read_hovered : Css.Library.read ":hover" = .ok (Css.Selector.finder [.one [.never]]) := rfl

/-- Whether a text is refused with a fault. -/
def refused (f : Css.Fault) : Except Css.Fault Css.Selector → Bool
  | .ok _ => false
  | .error g => g == f

theorem eq_of_refused {f : Css.Fault} {r : Except Css.Fault Css.Selector} (h : refused f r = true) : r = .error f := by
  cases r with
  | ok _ => cases h
  | error g => rw [eq_of_beq h]

theorem read_before : Css.Library.read "p::before" = .error (.pseudoElement 1) := by
  -- selectors cannot be compared as a whole
  have hread : Css.Selector.read "p::before" = .error (.pseudoElement 1) := eq_of_refused (by decide +kernel)
  show (Css.Selector.read "p::before").map Css.Selector.finder = _
  rw [hread]
  rfl

theorem rejected_barren : Css.Barren "[[" := by
  rw [Css.Barren, read_rejected]

/-- No element of a page at rest is hovered over. -/
theorem hovered_barren : Css.Barren ":hover" := by
  rw [Css.Barren, read_hovered]
  intro e
  simp [Css.Selector.finder, Css.select, Css.selectFirst?, Css.Selector.matches, Css.anyMatches, Css.Complex.matches,
    Css.allMatch, Css.Simple.matches]

/-- The library of the program fails with a text in reading it only. -/
theorem fails_iff {t : String} {f : Css.Fault} : Css.Library.Fails t f ↔ Css.Library.read t = .error f := by
  refine ⟨fun h => ?_, .read⟩
  cases h with
  | read h => exact h
  | all hread h | first hread h =>
    obtain ⟨sel, -, rfl⟩ := map_eq_ok.mp hread
    cases h

end Sample

/-- A text that is no selector gives what a selector gives that nothing matches. -/
theorem Extractor.result_absent_sample :
    (∃ w, ((fresh Sample.page Sample.plain).after []).result (.text "[[") none = .ok w) ∧
      ((fresh Sample.page Sample.plain).after []).result (.text ":hover") none
        = ((fresh Sample.page Sample.plain).after []).result (.text "[[") none := by
  have hs : Schema.compile (.text "[[") = .ok (.text "[[") := by simp [Schema.compile]
  have ht : Schema.compile (.text ":hover") = .ok (.text ":hover") := by simp [Schema.compile]
  have hr : ∀ p ∈ ([] : Registry), ∀ v args, ∃ w, p.2.run v args = .ok w := by simp
  obtain ⟨hanswer, hsame⟩ := result_absent (o := Sample.plain) (r := []) Sample.page rfl rfl rfl hr [] hs none
  have htwin : Schema.Twin (.barren Sample.plain.dialect) .one (.text "[[") (.text ":hover") :=
    .text (.inr ⟨⟨_, Sample.selectorOf?_rejected, Sample.rejected_barren⟩,
      ⟨_, Sample.selectorOf?_hovered, Sample.hovered_barren⟩⟩)
  refine ⟨?_, hsame ht htwin⟩
  rcases hanswer with hw | ⟨t, ht, f, hfails, hf, -⟩
  · exact hw
  · -- the only selector is none at all
    have hselectors : Schema.selectors Sample.plain.dialect (.text "[[") = ["[["] := by
      rw [Schema.selectors, Sample.selectorOf?_rejected, Option.toList_some]
    obtain rfl := List.mem_singleton.mp (hselectors ▸ ht)
    rw [Sample.fails_iff, Sample.read_rejected] at hfails
    cases hfails
    exact (hf rfl).elim

/-- What is understood but not supported is a fault: a pseudo-element leaves no value. -/
theorem Extractor.absence_fails :
    ¬∀ (page : Element) (o : Options) (r : Registry), o.dialect = r.dialect → o.queryHook = none →
      o.mappingHook = none → (∀ p ∈ r, ∀ v args, ∃ w, p.2.run v args = .ok w) →
      ∀ (v : Value) (s : Compiled), Schema.compile v = .ok s → ∀ scope : Option Scope,
        ∃ w, (fresh page o).result v scope = .ok w := by
  intro h
  have hs : Schema.compile (.text "p::before") = .ok (.text "p::before") := by simp [Schema.compile]
  obtain ⟨w, hw⟩ := h Sample.page Sample.plain [] rfl rfl rfl (by simp) _ _ hs none
  obtain ⟨q, hq, hselector⟩ := Meaning.query_selector (x := Sample.plain.engine) Sample.selectorOf?_before
  have hr : (fresh Sample.page Sample.plain).result (.text "p::before") none = _ :=
    result_after Sample.page Sample.plain [] (.text "p::before") none
  have hfind : Meaning.found ((Scope.of Sample.page).findFirst? "p::before")
      = .error (.selector (.pseudoElement 1)) := by
    simp only [Scope.findFirst?, Scope.search, Sample.read_before]
    rfl
  rw [hr, Meaning.resolve_ok hs, Meaning.value, Meaning.single_eq rfl, hq, ok_bind, Meaning.takeOne, Meaning.findOne,
    hselector] at hw
  simp only [Option.getD_none, hfind, error_bind] at hw
  cases hw

end Harvest
