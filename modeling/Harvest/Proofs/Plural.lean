import Harvest.Proofs.Alignment

/-
  Hooks are asked only where one value is wanted.

  A hook is about a query for one value, or about a mapping that stands for one record. In a list where no mapping has a
  root neither is met: expressions are worked through all their matches, and mappings make columns. Lists among the
  fields make no column whatever they hold (`Schema.Columnar`). So the work on such a list is the same for all hooks
  (`itemsOf_hooks`, by induction on the fields of its mappings), in what it comes to, in what it reports and in the
  queries it keeps.
-/
namespace Harvest
open Markup

mutual

/-- Whether a schema, met where many values are wanted, makes columns only: no mapping of it has a root, but for those
inside lists. -/
def Schema.Columnar {σ : Type} : Schema σ → Prop
  | .text _ => True
  | .mapping (.mk root fs _) => root = none ∧ ColumnarFields fs
  | .list _ => True

/-- The same of fields. -/
def ColumnarFields {σ : Type} : List (String × Schema σ) → Prop
  | [] => True
  | (_, s) :: fs => s.Columnar ∧ ColumnarFields fs

end

section
variable [Css.Library] {x y : Engine} {expand expand' : Expansion}

/-- An expression is worked through its matches by the dialect alone. -/
theorem plural_hooks (h : x.dialect = y.dialect) (e : String) (scope : Scope) :
    x.plural e scope = y.plural e scope := by
  rw [Engine.plural, Engine.plural, Engine.ask, Engine.ask, h]

theorem columnsOf_hooks (h : x.dialect = y.dialect) (scope : Scope) : ∀ {fs : List (String × Compiled)},
    ColumnarFields fs → columnsOf x expand scope fs = columnsOf y expand' scope fs
  | [], _ => by rw [columnsOf, columnsOf]
  | (_, .text _) :: _, ⟨_, hfs⟩ => by rw [columnsOf, columnsOf, plural_hooks h, columnsOf_hooks h scope hfs]
  | (_, .mapping (.mk none _ _)) :: _, ⟨⟨_, hgs⟩, hfs⟩ => by
    rw [columnsOf, columnsOf, columnsOf_hooks h scope hgs, columnsOf_hooks h scope hfs]
  -- a list is not worked through at all
  | (_, .list _) :: _, ⟨_, hfs⟩ => by rw [columnsOf, columnsOf, columnsOf_hooks h scope hfs]

theorem itemsOf_hooks (h : x.dialect = y.dialect) (scope : Scope) : ∀ {is : List (Item Entries)},
    (∀ i ∈ is, i.toSchema.Columnar) → itemsOf x expand scope is = itemsOf y expand' scope is
  | [], _ => by rw [itemsOf, itemsOf]
  | i :: is, his => by
    obtain ⟨hi, his⟩ := List.forall_mem_cons.mp his
    have hrest := itemsOf_hooks h scope his
    match i, hi with
    | .text _, _ => rw [itemsOf, itemsOf, plural_hooks h, hrest]
    | .mapping (.mk none _ _), ⟨_, hfs⟩ => rw [itemsOf, itemsOf, columnsOf_hooks h scope hfs, hrest]

/-- The work on a list without roots does not depend on the hooks. -/
theorem resolve_hooks (h : x.dialect = y.dialect) {v : Value} {is : List (Item Entries)}
    (hs : Schema.compile v = .ok (.list is)) (his : ∀ i ∈ is, i.toSchema.Columnar) (scope : Scope) :
    x.resolve v scope = y.resolve v scope := by
  have hcompile : Work.compile v = pure (.list is) := by rw [Work.compile, hs]
  rw [Engine.resolve, Engine.resolve, hcompile, pure_bind, pure_bind, Schema.extract, Schema.extract,
    itemsOf_hooks h scope his]

end

/-- No hook is asked about a list in which no mapping has a root, whatever its items and the lists among their fields
are: with any two pairs of hooks, one extractor answers as the other, reports the same and keeps the same queries. What
was asked before makes no difference to the value or the fault. -/
theorem Extractor.call_hooks [Css.Library] (page : Element) (d : Dialect) (q m q' m' : Option Hook) {v : Value}
    {is : List (Item Entries)} (hs : Schema.compile v = .ok (.list is)) (his : ∀ i ∈ is, i.toSchema.Columnar)
    (scope : Option Scope) :
    (∀ memo : Memo,
        let x : Extractor := ⟨page, ⟨d, q, m⟩, memo⟩
        let y : Extractor := ⟨page, ⟨d, q', m'⟩, memo⟩
        (x.call v scope).1 = (y.call v scope).1 ∧ (x.call v scope).2.memo = (y.call v scope).2.memo)
      ∧ ∀ history history' : List Call,
        ((fresh page ⟨d, q, m⟩).after history).result v scope
          = ((fresh page ⟨d, q', m'⟩).after history').result v scope := by
  have hcall : ∀ memo : Memo, ∀ x y : Extractor, x = ⟨page, ⟨d, q, m⟩, memo⟩ → y = ⟨page, ⟨d, q', m'⟩, memo⟩ →
      (x.call v scope).1 = (y.call v scope).1 ∧ (x.call v scope).2.memo = (y.call v scope).2.memo := by
    rintro memo x y rfl rfl
    have hwork := resolve_hooks (x := Options.engine ⟨d, q, m⟩) (y := Options.engine ⟨d, q', m'⟩) rfl hs his
    simp only [call, scopeOf, hwork]
    exact ⟨rfl, rfl⟩
  refine ⟨fun memo => hcall memo _ _ rfl rfl, fun history history' => ?_⟩
  have hfresh : (fresh page ⟨d, q, m⟩).result v scope = (fresh page ⟨d, q', m'⟩).result v scope :=
    congrArg Answer.result (hcall [] _ _ rfl rfl).1
  have hx : (fresh page ⟨d, q, m⟩).result v scope = _ := result_after page ⟨d, q, m⟩ [] v scope
  have hy : (fresh page ⟨d, q', m'⟩).result v scope = _ := result_after page ⟨d, q', m'⟩ [] v scope
  rw [result_after, result_after, ← hx, ← hy, hfresh]

namespace Sample

/-- Hooks that fail whenever they are asked. -/
def failing : Hook := ⟨fun _ _ => .error (.hook "asked"), fun _ _ => .error (.hook "asked")⟩

/-- The titles, and the same in a record with a list that makes no column. -/
def columnar : Value := .list [.text "b", .map [(.text "title", .text "b"), (.text "items", .list [.map titles])]]

/-- What the columnar sample compiles to. -/
def columnarItems : List (Item Entries) :=
  [.text "b", .mapping (.mk none
    [("title", .text "b"), ("items", .list [.mapping (.mk (some "li") [("title", .text "b")] titles)])]
    [(.text "title", .text "b"), (.text "items", .list [.map titles])])]

theorem result_columnar :
    (Extractor.fresh page options).result columnar none
      = .ok (.list [.text "x", .ofRecord [("title", .text "x")]]) := by
  have hs : Schema.compile columnar = .ok (.list columnarItems) := rfl
  have hr : (Extractor.fresh page options).result columnar none = _ :=
    Extractor.result_after page options [] columnar none
  rw [hr, Meaning.resolve_ok hs, Option.getD_none]
  simp only [columnarItems, Meaning.value, Meaning.items, Meaning.columns, plural_title, ok_bind, pure_eq_ok]
  rfl

end Sample

/-- Titles and columns, with hooks that fail whenever they are asked. -/
theorem Extractor.call_hooks_sample :
    (∀ i ∈ Sample.columnarItems, i.toSchema.Columnar)
      ∧ ((fresh Sample.page ⟨Sample.options.dialect, some Sample.failing, some Sample.failing⟩).after []).result
          Sample.columnar none = .ok (.list [.text "x", .ofRecord [("title", .text "x")]]) := by
  have hcolumnar : ∀ i ∈ Sample.columnarItems, i.toSchema.Columnar := by
    simp [Sample.columnarItems, Item.toSchema, Schema.Columnar, ColumnarFields]
  have law := call_hooks Sample.page Sample.options.dialect (some Sample.failing) (some Sample.failing) none none
    (v := Sample.columnar) rfl hcolumnar none
  refine ⟨hcolumnar, (law.2 [] []).trans ?_⟩
  exact Sample.result_columnar

end Harvest
