import Harvest.Proofs.First
import Harvest.Proofs.Macro
import Harvest.Proofs.Order

/-
  A macro may use itself.

  The hook of a recursive macro puts one body in place of every mapping with its key, and there may be such mappings in
  the body. So there is no end in the schema; the end must come from the page. It does where the uses in the body are
  met behind the roots of lists only (`Schema.Guarded`): there the body is put in once for each match, and a match lies
  deeper in the page. That it does is all that is asked of the library of selectors (`Css.Library.Descending`).
    1. `Schema.Meets` — the scopes where uses are met while a schema is worked through a scope. What the schema gives
       depends on what the body gives in these scopes, and on no other expansion (`extract_congr`).
    2. `inside_of_meets`, `below_of_meets` — these scopes lie within the elements of the scope. If the schema is
       guarded, each of them lies within a match below one of the elements.
    3. `Scope.height` — so with each expansion the scope is lower, and where nothing lies below there is no other.
    4. `Engine.resolve_ends` — therefore what a value gives depends neither on the bound on expansions inside each other
       nor on what happens beyond it, once the bound is higher than the scope.
    5. `expanding_endless` (anti-vacuity) — a body with a use below a root for one value does not end: where the root
       has no match the empty scope is left, and in it the body is put in again and again.
-/
namespace Harvest
open Markup Work

/-- The library of the program finds what lies below only. -/
theorem Css.descending : Library.Descending := by
  constructor
  · intro t f hread e es hes d hd
    obtain ⟨sel, -, rfl⟩ := map_eq_ok.mp hread
    cases hes
    exact List.mem_of_mem_filter hd
  · intro t f hread e d hd
    obtain ⟨sel, -, rfl⟩ := map_eq_ok.mp hread
    exact List.mem_of_find?_eq_some (Except.ok.inj hd)

/-! ## Scopes within scopes -/

namespace Scope
variable {s t : Scope} {es : List Element}

/-- Whether the elements of a scope are among some elements or lie within them. -/
def Inside (t : Scope) (es : List Element) : Prop := ∀ f ∈ t.elements, ∃ e ∈ es, f ∈ e.subtree

/-- Whether a scope lies within an element below another scope. All its elements lie below then. -/
def Below (t s : Scope) : Prop := ∃ e ∈ s.elements, ∃ d ∈ e.descendants, t.Inside [d]

theorem inside_self (s : Scope) : s.Inside s.elements := fun e he => ⟨e, he, List.mem_cons_self⟩

theorem Inside.trans (ht : t.Inside s.elements) (hs : s.Inside es) : t.Inside es := by
  intro f hf
  obtain ⟨e, he, hfe⟩ := ht f hf
  obtain ⟨d, hd, hed⟩ := hs e he
  exact ⟨d, hd, Element.subtree_subset hed hfe⟩

theorem inside_of_mem_descendants {e : Element} (h : ∃ d ∈ es, e ∈ d.descendants) : (of e).Inside es := by
  obtain ⟨d, hd, hed⟩ := h
  intro f hf
  obtain rfl := List.mem_singleton.mp hf
  exact ⟨d, hd, List.mem_cons_of_mem d hed⟩

theorem Below.of_inside {u : Scope} (ht : t.Below u) (hu : u.Inside s.elements) : t.Below s := by
  obtain ⟨e, he, d, hd, htd⟩ := ht
  obtain ⟨c, hc, hec⟩ := hu e he
  exact ⟨c, hc, d, (Element.descendants_sublist hec).subset hd, htd⟩

/-- What a search gives: what is found with the selector that the text is, or nothing. -/
theorem search_found [Css.Library] {α : Type} {r : String} {nothing result : α} {find : Css.Finder → Except Css.Fault α}
    (h : Meaning.found (s.search r nothing find) = .ok result) :
    result = nothing ∨ ∃ f, Css.Library.read r = .ok f ∧ find f = .ok result := by
  rw [search] at h
  split at h
  · cases h
    exact .inl rfl
  · split at h
    · next a ha =>
      cases h
      exact .inr (bind_eq_ok.mp ha)
    · cases h
      exact .inl rfl
    · cases h

section
variable [Css.Library] (hlib : Css.Library.Descending)
include hlib

theorem mem_descendants_of_findAll {r : String} {found : Scope} (h : Meaning.found (s.findAll r) = .ok found) :
    ∀ d ∈ found.elements, ∃ e ∈ s.elements, d ∈ e.descendants := by
  intro d hd
  rcases search_found h with rfl | ⟨f, hread, hfound⟩
  · cases hd
  · obtain ⟨ess, hess, hlist⟩ := bind_eq_ok.mp hfound
    cases hlist
    obtain ⟨es, hes, hde⟩ := List.mem_flatten.mp (mem_of_mem_keepFirst hd)
    obtain ⟨e, he, hall⟩ := exists_of_mapM hess hes
    exact ⟨e, he, hlib.all r f hread e es hall hde⟩

theorem mem_descendants_of_findFirst? {r : String} {d : Element} (h : Meaning.found (s.findFirst? r) = .ok (some d)) :
    ∃ e ∈ s.elements, d ∈ e.descendants := by
  rcases search_found h with hnone | ⟨f, hread, hd⟩
  · cases hnone
  · obtain ⟨e, he, hde⟩ := exists_of_findSomeM? hd
    exact ⟨e, he, hlib.first r f hread e d hde⟩

theorem inside_of_narrow {root : Option String} (h : Meaning.narrow root s = .ok t) : t.Inside s.elements := by
  cases root with
  | none =>
    cases h
    exact s.inside_self
  | some r =>
    obtain ⟨e?, he, ht⟩ := bind_eq_ok.mp h
    cases e? with
    | none =>
      cases ht
      intro f hf
      cases hf
    | some e =>
      cases ht
      exact inside_of_mem_descendants (mem_descendants_of_findFirst? hlib he)

end

/-- How many levels of elements lie within the elements of a scope. -/
def height (s : Scope) : Nat := (s.elements.map (·.height)).foldr max 0

theorem height_le_iff {n : Nat} : s.height ≤ n ↔ ∀ e ∈ s.elements, e.height ≤ n := by
  rw [height]
  induction s.elements with
  | nil => simp
  | cons e es ih => simp [ih]

theorem Inside.height_le (h : t.Inside s.elements) : t.height ≤ s.height := by
  apply height_le_iff.mpr
  intro f hf
  obtain ⟨e, he, hfe⟩ := h f hf
  exact Nat.le_trans (Element.height_le hfe) (height_le_iff.mp (Nat.le_refl _) e he)

theorem Below.height_lt (h : t.Below s) : t.height < s.height := by
  obtain ⟨e, he, d, hd, htd⟩ := h
  calc t.height ≤ (of d).height := Inside.height_le htd
    _ = d.height := by simp [height, of]
    _ < e.height := Element.height_lt hd
    _ ≤ s.height := height_le_iff.mp (Nat.le_refl _) e he

end Scope

/-! ## Where uses are met -/

section
variable [Css.Library] (key : Value)

/-- Where a mapping with a key is met first while a schema is worked through a scope: the hook is asked about it in that
scope. -/
inductive Schema.Meets : Position → Compiled → Scope → Scope → Prop where
  | use {root : Option String} {fs : List (String × Compiled)} {source : Entries} {scope : Scope}
      (h : Value.Names key source) : Schema.Meets .one (.mapping (.mk root fs source)) scope scope
  | field {root : Option String} {fs : List (String × Compiled)} {source : Entries} {scope inner t : Scope} {k : String}
      {s : Compiled} (hs : (k, s) ∈ fs) (hroot : Meaning.narrow root scope = .ok inner)
      (h : Schema.Meets .one s inner t) : Schema.Meets .one (.mapping (.mk root fs source)) scope t
  | item {is : List (Item Entries)} {m : Mapping Entries} {scope t : Scope} (hm : .mapping m ∈ is)
      (h : Schema.Meets .many (.mapping m) scope t) : Schema.Meets .one (.list is) scope t
  | record {r : String} {fs : List (String × Compiled)} {source : Entries} {scope found t : Scope} {e : Element}
      (hr : Meaning.found (scope.findAll r) = .ok found) (he : e ∈ found.elements)
      (h : Schema.Meets .one (.mapping (.mk none fs (Value.without Schema.rootKey source))) (.of e) t) :
      Schema.Meets .many (.mapping (.mk (some r) fs source)) scope t
  | column {fs : List (String × Compiled)} {source : Entries} {scope t : Scope} {k : String} {s : Compiled}
      (hs : (k, s) ∈ fs) (h : Schema.Meets .many s scope t) :
      Schema.Meets .many (.mapping (.mk none fs source)) scope t

/-- Whether mappings with a key stand only behind roots of which every match counts, as those of list items do. -/
inductive Schema.Guarded : Position → Compiled → Prop where
  | text {p : Position} {e : String} : Schema.Guarded p (.text e)
  | mapping {root : Option String} {fs : List (String × Compiled)} {source : Entries} (h : ¬Value.Names key source)
      (hfs : ∀ f ∈ fs, Schema.Guarded .one f.2) : Schema.Guarded .one (.mapping (.mk root fs source))
  | list {p : Position} {is : List (Item Entries)} (h : ∀ i ∈ is, Schema.Guarded .many i.toSchema) :
      Schema.Guarded p (.list is)
  | rooted {r : String} {fs : List (String × Compiled)} {source : Entries} :
      Schema.Guarded .many (.mapping (.mk (some r) fs source))
  | column {fs : List (String × Compiled)} {source : Entries} (hfs : ∀ f ∈ fs, Schema.Guarded .many f.2) :
      Schema.Guarded .many (.mapping (.mk none fs source))

end

namespace Schema
variable {key : Value} {p : Position} {s : Compiled} {scope t : Scope}

section
variable [Css.Library] (hlib : Css.Library.Descending)
include hlib

theorem inside_of_meets (h : s.Meets key p scope t) : t.Inside scope.elements := by
  induction h with
  | use => exact Scope.inside_self _
  | field _ hroot _ ih => exact ih.trans (Scope.inside_of_narrow hlib hroot)
  | item _ _ ih => exact ih
  | record hr he _ ih =>
    have hmatch := Scope.inside_of_mem_descendants (Scope.mem_descendants_of_findAll hlib hr _ he)
    exact ih.trans hmatch
  | column _ _ ih => exact ih

/-- In a guarded schema uses are met below the scope, since a match stands between. -/
theorem below_of_meets (h : s.Meets key p scope t) (hs : s.Guarded key p) : t.Below scope := by
  induction h with
  | use huse =>
    cases hs with
    | mapping hno _ => exact absurd huse hno
  | field hmem hroot _ ih =>
    cases hs with
    | mapping _ hfs => exact (ih (hfs _ hmem)).of_inside (Scope.inside_of_narrow hlib hroot)
  | item hmem _ ih =>
    cases hs with
    | list his => exact ih (his _ hmem)
  | record hr he h _ =>
    obtain ⟨e, hscope, hd⟩ := Scope.mem_descendants_of_findAll hlib hr _ he
    exact ⟨e, hscope, _, hd, inside_of_meets hlib h⟩
  | column hmem _ ih =>
    cases hs with
    | column hfs => exact ih (hfs _ hmem)

end

/-- A mapping that was put in another's place, as it is worked through: the hook is not asked about it again. -/
def settled : Compiled → Compiled
  | .mapping (.mk root fs _) => .mapping (.mk root fs [])
  | s => s

end Schema

/-! ## Recursive macros -/

/-- A macro with one body for all uses, in which the uses are guarded. -/
structure RecursiveMacro where
  key : Value
  body : Value
  schema : Compiled
  compile_body : Schema.compile body = .ok schema
  guarded : schema.settled.Guarded key .one

/-- The hook that puts a value in place of every mapping with a key. -/
def MappingHook.rewriting (key body : Value) : MappingHook :=
  fun _ es => .ok (if Value.Names key es then .replaced body else .unchanged)

/-- Whether an engine has the hook that rewrites mappings, or none at all. -/
def Engine.Rewrites (x : Engine) (key body : Value) : Prop := ∀ h ∈ x.mappingHook, h = .rewriting key body

namespace Engine
variable [Css.Library] (x : Engine)

/-- How a value that was put in place of a mapping is worked through, if those within it are by `expand`. -/
def expandedBy (expand : Expansion) : Expansion := fun v scope => do
  match ← compile v with
  | .mapping (.mk root fs _) => filled root (fun s => fieldsOf x expand s fs) scope
  | s => s.extract x expand scope

/-- A number of expansions inside each other, and something else beyond. -/
def expandingOver (beyond : Expansion) : Nat → Expansion
  | 0 => beyond
  | n + 1 => x.expandedBy (expandingOver beyond n)

/-- Works a value through a scope with a bound on expansions inside each other, and something else beyond. -/
def resolveOver (beyond : Expansion) (n : Nat) (schema : Value) (scope : Scope) : Work Value := do
  let s ← compile schema
  s.extract x (x.expandingOver beyond n) scope

theorem expanding_eq (n : Nat) : x.expanding n = x.expandingOver (fun _ _ => throw .depth) n := by
  induction n with
  | zero => rfl
  | succ n ih =>
    rw [expandingOver, ← ih]
    rfl

end Engine

/-! ## What an expansion depends on -/

namespace Work
variable {α β : Type}

theorem found_bind_congr {r : Scope.Search α} {f g : α → Work β} (h : ∀ a, Meaning.found r = .ok a → f a = g a) :
    found r >>= f = found r >>= g := by
  rcases r with fault | ⟨a, es⟩
  · rfl
  · have ha : f a = g a := h a rfl
    simp only [found, bind_assoc, pure_bind, ha]

end Work

namespace Engine

theorem forEach_congr {f g : Scope → Work Value} {es : List Element} (h : ∀ e ∈ es, f (.of e) = g (.of e)) :
    forEach f es = forEach g es := by
  induction es with
  | nil => rfl
  | cons e es ih =>
    obtain ⟨he, hes⟩ := List.forall_mem_cons.mp h
    rw [forEach, forEach, he, ih hes]

variable [Css.Library] {x : Engine} {key body : Value} {expand expand' : Expansion} {scope : Scope}

theorem narrow_bind_congr {β : Type} {root : Option String} {f g : Scope → Work β}
    (h : ∀ inner, Meaning.narrow root scope = .ok inner → f inner = g inner) :
    narrow root scope >>= f = narrow root scope >>= g := by
  cases root with
  | none => exact h scope rfl
  | some r =>
    rw [narrow, bind_assoc, bind_assoc]
    apply found_bind_congr
    intro e? he
    have hinner := h (.ofOption e?) (by rw [Meaning.narrow, he]; rfl)
    cases e? with
    | none =>
      simp only [bind_assoc, pure_bind]
      exact bind_congr fun _ => hinner
    | some e => exact hinner

theorem filled_congr {root : Option String} {fill fill' : Scope → Work Value.Record}
    (hfill : ∀ inner, Meaning.narrow root scope = .ok inner → fill inner = fill' inner) :
    filled root fill scope = filled root fill' scope := by
  apply narrow_bind_congr
  intro inner hinner
  rw [hfill inner hinner]

theorem single?_of_unused (hx : x.Rewrites key body) {source : Entries} (h : ¬Value.Names key source)
    (root : Option String) (fill : Scope → Work Value.Record) :
    x.single? expand source root fill scope = filled root fill scope := by
  unfold single?
  cases hhook : x.mappingHook with
  | none => rfl
  | some hook =>
    obtain rfl := hx hook hhook
    simp only [Option.map_some, MappingHook.rewriting, if_neg h, decision, pure_bind]

theorem single?_congr (hx : x.Rewrites key body) {source : Entries} {root : Option String}
    {fill fill' : Scope → Work Value.Record} (huse : Value.Names key source → expand body scope = expand' body scope)
    (hfill : ∀ inner, Meaning.narrow root scope = .ok inner → fill inner = fill' inner) :
    x.single? expand source root fill scope = x.single? expand' source root fill' scope := by
  have hfilled := filled_congr hfill
  by_cases hnames : Value.Names key source
  · unfold single?
    cases hhook : x.mappingHook with
    | none => exact hfilled
    | some hook =>
      obtain rfl := hx hook hhook
      simpa only [Option.map_some, MappingHook.rewriting, if_pos hnames, decision, pure_bind] using huse hnames
  · rw [single?_of_unused hx hnames, single?_of_unused hx hnames, hfilled]

end Engine

section
variable [Css.Library] {x : Engine} {key body : Value} {expand expand' : Expansion}

theorem records_congr (hx : x.Rewrites key body) {scope : Scope} {r : String} {fs : List (String × Compiled)}
    {source : Entries}
    (hfields : ∀ {inner : Scope}, (∀ f ∈ fs, ∀ t, f.2.Meets key .one inner t → expand body t = expand' body t) →
      fieldsOf x expand inner fs = fieldsOf x expand' inner fs)
    (h : ∀ t, (Schema.mapping (.mk (some r) fs source)).Meets key .many scope t → expand body t = expand' body t) :
    x.records expand source r (fun s => fieldsOf x expand s fs) scope
      = x.records expand' source r (fun s => fieldsOf x expand' s fs) scope := by
  apply found_bind_congr
  intro found hfound
  apply Engine.forEach_congr
  intro e he
  apply Engine.single?_congr hx
  · exact fun huse => h _ (.record hfound he (.use huse))
  · intro inner hroot
    exact hfields fun f hf t ht => h t (.record hfound he (.field hf hroot ht))

mutual

/-- Schemas come to the same where the expansions of the body do in all scopes where uses are met. -/
theorem extract_congr (hx : x.Rewrites key body) {scope : Scope} : ∀ {s : Compiled},
    (∀ t, s.Meets key .one scope t → expand body t = expand' body t) →
    s.extract x expand scope = s.extract x expand' scope
  | .text _, _ => by rw [Schema.extract, Schema.extract]
  | .mapping (.mk root fs source), h => by
    rw [Schema.extract, Schema.extract]
    apply Engine.single?_congr hx
    · exact fun huse => h scope (.use huse)
    · intro inner hroot
      exact fieldsOf_congr hx fun f hf t ht => h t (.field hf hroot ht)
  | .list is, h => by
    rw [Schema.extract, Schema.extract, itemsOf_congr hx fun m hm t ht => h t (.item hm ht)]

theorem fieldsOf_congr (hx : x.Rewrites key body) {scope : Scope} : ∀ {fs : List (String × Compiled)},
    (∀ f ∈ fs, ∀ t, f.2.Meets key .one scope t → expand body t = expand' body t) →
    fieldsOf x expand scope fs = fieldsOf x expand' scope fs
  | [], _ => by rw [fieldsOf, fieldsOf]
  | (_, _) :: _, h => by
    obtain ⟨hs, hfs⟩ := List.forall_mem_cons.mp h
    rw [fieldsOf, fieldsOf, extract_congr hx hs, fieldsOf_congr hx hfs]

theorem itemsOf_congr (hx : x.Rewrites key body) {scope : Scope} : ∀ {is : List (Item Entries)},
    (∀ m, .mapping m ∈ is → ∀ t, (Schema.mapping m).Meets key .many scope t → expand body t = expand' body t) →
    itemsOf x expand scope is = itemsOf x expand' scope is
  | [], _ => by rw [itemsOf, itemsOf]
  | .text _ :: is, h => by
    rw [itemsOf, itemsOf, itemsOf_congr hx fun m hm => h m (List.mem_cons_of_mem _ hm)]
  | .mapping (.mk (some r) fs source) :: is, h => by
    have hrecords := records_congr hx (fun hfs => fieldsOf_congr hx hfs) (h _ List.mem_cons_self)
    rw [itemsOf, itemsOf, hrecords, itemsOf_congr hx fun m hm => h m (List.mem_cons_of_mem _ hm)]
  | .mapping (.mk none fs source) :: is, h => by
    have hcolumns := columnsOf_congr hx fun f hf t ht => h _ List.mem_cons_self t (.column hf ht)
    rw [itemsOf, itemsOf, hcolumns, itemsOf_congr hx fun m hm => h m (List.mem_cons_of_mem _ hm)]

theorem columnsOf_congr (hx : x.Rewrites key body) {scope : Scope} : ∀ {fs : List (String × Compiled)},
    (∀ f ∈ fs, ∀ t, f.2.Meets key .many scope t → expand body t = expand' body t) →
    columnsOf x expand scope fs = columnsOf x expand' scope fs
  | [], _ => by rw [columnsOf, columnsOf]
  | (_, .text _) :: fs, h => by
    rw [columnsOf, columnsOf, columnsOf_congr hx (List.forall_mem_cons.mp h).2]
  | (_, .mapping (.mk (some r) gs source)) :: fs, h => by
    obtain ⟨hs, hfs⟩ := List.forall_mem_cons.mp h
    rw [columnsOf, columnsOf, records_congr hx (fun hgs => fieldsOf_congr hx hgs) hs, columnsOf_congr hx hfs]
  | (_, .mapping (.mk none gs source)) :: fs, h => by
    obtain ⟨hs, hfs⟩ := List.forall_mem_cons.mp h
    rw [columnsOf, columnsOf, columnsOf_congr hx fun f hf t ht => hs t (.column hf ht), columnsOf_congr hx hfs]
  | (_, .list _) :: fs, h => by
    rw [columnsOf, columnsOf, columnsOf_congr hx (List.forall_mem_cons.mp h).2]

end
end

/-! ## Expansions inside each other -/

namespace Engine

section
variable [Css.Library] {x : Engine} {expand expand' : Expansion} {scope : Scope}

/-- A value that was put in place of a mapping is worked through as its schema is, the hook not asked about it again. -/
theorem expandedBy_settled {key body : Value} (hx : x.Rewrites key body) {v : Value} {s : Compiled}
    (hv : Schema.compile v = .ok s) (expand : Expansion) (scope : Scope) :
    x.expandedBy expand v scope = s.settled.extract x expand scope := by
  match s with
  | .text _ | .list _ => simp only [expandedBy, compile, hv, pure_bind, Schema.settled]
  | .mapping (.mk root fs source) =>
    have hnil : ¬Value.Names key [] := by simp [Value.Names, Value.find?]
    rw [Schema.settled, Schema.extract, single?_of_unused hx hnil]
    simp only [expandedBy, compile, hv, pure_bind]

section
variable (hlib : Css.Library.Descending) (m : RecursiveMacro) (hx : x.Rewrites m.key m.body)
include hlib hx

/-- What the body comes to in a scope depends on what it comes to below, and on no other expansion. -/
theorem expandedBy_congr (h : ∀ t, t.Below scope → expand m.body t = expand' m.body t) :
    x.expandedBy expand m.body scope = x.expandedBy expand' m.body scope := by
  rw [expandedBy_settled hx m.compile_body, expandedBy_settled hx m.compile_body]
  apply extract_congr hx
  intro t ht
  exact h t (Schema.below_of_meets hlib ht m.guarded)

/-- A bound that is higher than the scope is not reached. The induction is on the bound; each expansion takes one from
it, and one level from the scope. -/
theorem expandingOver_body (beyond beyond' : Expansion) {n n' : Nat} (hn : scope.height < n) (hn' : scope.height < n') :
    x.expandingOver beyond n m.body scope = x.expandingOver beyond' n' m.body scope := by
  induction n generalizing n' scope with
  | zero => omega
  | succ n ih =>
    cases n' with
    | zero => omega
    | succ n' =>
      rw [expandingOver, expandingOver]
      apply expandedBy_congr hlib m hx
      intro t ht
      have hlower := ht.height_lt
      exact ih (by omega) (by omega)

theorem resolveOver_eq (beyond beyond' : Expansion) {n n' : Nat} (hn : scope.height < n) (hn' : scope.height < n')
    (v : Value) : x.resolveOver beyond n v scope = x.resolveOver beyond' n' v scope := by
  rw [resolveOver, resolveOver]
  apply bind_congr
  intro s
  apply extract_congr hx
  intro t ht
  have hle := (Schema.inside_of_meets hlib ht).height_le
  exact expandingOver_body hlib m hx beyond beyond' (by omega) (by omega)

end

/-- A list whose root has no match is empty, and nothing is expanded in it. -/
theorem extract_no_match {r : String} {found : Scope} {es : List Event} (h : scope.findAll r = .ok (found, es))
    (hempty : found.elements = []) (fs : List (String × Compiled)) (source : Entries) :
    (Schema.list [.mapping (.mk (some r) fs source)]).extract x expand scope
      = report es >>= fun _ => pure (.list []) := by
  simp [Schema.extract, itemsOf, records, h, Work.found, hempty, forEach]

end

/-- Where the hook is that of a recursive macro, or there is none, every value ends in every scope: what it gives
depends neither on the bound on expansions inside each other nor on what happens beyond it, once the bound is higher
than the scope. For what the body gives in a scope depends on what it gives below, and a list whose root has no match
expands nothing. -/
theorem resolve_ends [Css.Library] (hlib : Css.Library.Descending) (x : Engine) (m : RecursiveMacro)
    (hx : x.Rewrites m.key m.body) :
    (∀ (v : Value) (scope : Scope), ∃ w : Work Value,
        (∀ (beyond : Expansion) (n : Nat), scope.height < n → x.resolveOver beyond n v scope = w)
          ∧ ∀ s, Schema.compile v = .ok s → scope.height < s.depth + deepest → x.resolve v scope = w)
      ∧ (∀ (scope : Scope) (expand expand' : Expansion),
        (∀ t : Scope, t.Below scope → expand m.body t = expand' m.body t) →
        x.expandedBy expand m.body scope = x.expandedBy expand' m.body scope)
      ∧ ∀ (scope : Scope) (expand : Expansion) (r : String) (found : Scope) (es : List Event),
        scope.findAll r = .ok (found, es) → found.elements = [] → ∀ fs source,
        (Schema.list [.mapping (.mk (some r) fs source)]).extract x expand scope
          = report es >>= fun _ => pure (.list []) := by
  refine ⟨fun v scope => ?_, fun scope expand expand' => expandedBy_congr hlib m hx, fun scope expand r found es =>
    extract_no_match⟩
  have hscope := Nat.lt_succ_self scope.height
  let limit : Expansion := fun _ _ => throw .depth
  refine ⟨x.resolveOver limit (scope.height + 1) v scope, fun beyond n hn => ?_, fun s hs hdepth => ?_⟩
  · exact resolveOver_eq hlib m hx beyond limit hn hscope v
  · calc x.resolve v scope
        = x.resolveOver limit (s.depth + deepest) v scope := by
          simp only [resolve, resolveOver, compile, hs, pure_bind, expanding_eq, limit]
      _ = x.resolveOver limit (scope.height + 1) v scope := resolveOver_eq hlib m hx limit limit hdepth hscope v

end Engine

namespace Sample

/-- A list item, standing for the outline of what is in it. -/
def branch : Entries := [(Schema.rootKey, .text "li"), (.text "$tree", .text "")]

/-- A title and the list items below, each with its own outline. -/
def outline : Value := .map [(.text "title", .text "b"), (.text "items", .list [.map branch])]

/-- A mapping with the key `$tree` stands for the outline. -/
def outlining : RecursiveMacro where
  key := .text "$tree"
  body := outline
  schema := .mapping (.mk none
    [("title", .text "b"), ("items", .list [.mapping (.mk (some "li") [("$tree", .text "")] branch)])] _)
  compile_body := rfl
  guarded := by
    refine .mapping (by simp [Value.Names, Value.find?]) ?_
    simp only [List.forall_mem_cons]
    refine ⟨.text, .list ?_, by simp⟩
    intro i hi
    obtain rfl := List.mem_singleton.mp hi
    exact .rooted

end Sample

/-- The outline of the sample page needs no more than three expansions inside each other. -/
theorem Engine.resolve_ends_sample :
    let x : Engine := { Sample.options.engine with mappingHook := some (.rewriting (.text "$tree") Sample.outline) }
    x.Rewrites (.text "$tree") Sample.outline
      ∧ ∃ w, (∀ beyond, x.resolveOver beyond 3 Sample.outline (.of Sample.page) = w)
        ∧ x.resolve Sample.outline (.of Sample.page) = w := by
  have hx : Engine.Rewrites
      { Sample.options.engine with mappingHook := some (.rewriting (.text "$tree") Sample.outline) }
      (.text "$tree") Sample.outline := fun h hh => (Option.some.inj hh).symm
  have hheight : (Scope.of Sample.page).height = 2 := by
    simp [Scope.height, Scope.of, Element.height, Sample.page, Element.document, Element.levels]
  obtain ⟨w, hbound, hresolve⟩ := (resolve_ends Css.descending _ Sample.outlining hx).1 Sample.outline (.of Sample.page)
  refine ⟨hx, w, fun beyond => hbound beyond 3 (by omega), hresolve _ Sample.outlining.compile_body ?_⟩
  rw [hheight, deepest]
  omega

/-! ## Without a guard -/

namespace Meaning
variable [Css.Library] {x : Engine}

/-- A body with a use of itself below a root for one value. -/
def endless (r : String) : Value :=
  .map [(Schema.rootKey, .text r), (.text "next", .map [(.text "again", .text "")])]

theorem exists_narrow {r : String} {f : Css.Finder} (hr : Css.Library.read r = .ok f)
    (hf : ∀ e, ∃ found, f.first? e = .ok found) (scope : Scope) : ∃ inner, narrow (some r) scope = .ok inner := by
  choose found hfound using hf
  rw [narrow, Scope.findFirst?, Scope.search, hr, ok_bind, findSomeM?_ok fun e _ => hfound e]
  split <;> exact ⟨_, rfl⟩

/-- A use that is met for one value below a root comes to no end, with any bound and in any scope. -/
theorem expanding_endless {r : String} {f : Css.Finder} (hr : Css.Library.read r = .ok f)
    (hf : ∀ e, ∃ found, f.first? e = .ok found) (hne : r ≠ "")
    (hx : x.mappingHook = some (.rewriting (.text "again") (endless r))) (n : Nat) (scope : Scope) :
    expanding x n (endless r) scope = .error .depth := by
  have huse : Value.Names (.text "again") [(.text "again", .text "")] := by decide
  obtain ⟨source, hbody⟩ : ∃ source, Schema.compile (endless r) = .ok (.mapping (.mk (some r)
      [("next", .mapping (.mk none [("again", .text "")] [(.text "again", .text "")]))] source)) := by
    refine ⟨_, Schema.compile_map.mpr ⟨some r, _, ?_, ?_, rfl⟩⟩
    · simp [Schema.rootOf, Value.find?, Schema.rootKey, hne]
    · rfl
  induction n generalizing scope with
  | zero => rfl
  | succ n ih =>
    obtain ⟨inner, hinner⟩ := exists_narrow hr hf scope
    rw [expanding_mapping hbody, filled, hinner, ok_bind, fields, value, one, hx]
    simp only [Option.map_some, MappingHook.rewriting, if_pos huse, decision, Option.getD_some, ok_bind, ih inner]
    rfl

end Meaning
end Harvest
