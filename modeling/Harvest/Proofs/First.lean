import Harvest.Proofs.Alignment

/-
  One value is the first of many.

  Where one value is wanted, a search stops at the first element that it finds; where many are wanted, it goes on and
  keeps each element once. Both find the same first element, if the library of selectors does so in a single element
  (`Css.Library.Consistent`), as that of the program does (`Css.consistent`):
    1. `Scope.findFirst?_eq` — in any scope, for any text, also one that is no selector or a faulty one.
    2. `Meaning.single_of_plural` — so an expression comes to the first of the values that it has in a list.
    3. `Extractor.result_first` — the first record of a column of these values has it, if it is there at all, and it
       stands first in the list of those that are there.
-/
namespace Harvest
open Markup

theorem Css.selectFirst?_eq (sel : Css.Selector) (e : Element) :
    Css.selectFirst? sel e = (Css.select sel e).head? := List.head?_filter.symm

/-- The library of the program stops at the first of all that it finds. -/
theorem Css.consistent : Library.Consistent := by
  intro t f hread e
  obtain ⟨sel, -, rfl⟩ := map_eq_ok.mp hread
  exact ⟨select sel e, rfl, congrArg Except.ok (selectFirst?_eq sel e)⟩

theorem head?_keepFirst (es : List Element) : (keepFirst es).head? = es.head? := by
  cases es with
  | nil => rfl
  | cons e es => rfl

section
variable [Css.Library] (hfirst : Css.Library.Consistent)
include hfirst

/-- The first element found is the first of all that are found, with the same report, or both searches fail alike. -/
theorem Scope.findFirst?_eq (s : Scope) (selector : String) :
    s.findFirst? selector = (s.findAll selector).map fun (found, es) => (found.elements.head?, es) := by
  rw [findFirst?, findAll, search, search]
  split
  · rfl
  · cases hread : Css.Library.read selector with
    | ok f =>
      choose all hall hone using hfirst selector f hread
      have hmany : s.elements.mapM f.all = .ok (s.elements.map all) := mapM_ok fun e _ => hall e
      have hfound : s.elements.findSomeM? f.first? = .ok (ofList (s.elements.map all).flatten).elements.head? :=
        calc s.elements.findSomeM? f.first?
            = .ok (s.elements.findSome? fun e => (all e).head?) := findSomeM?_ok fun e _ => hone e
          _ = .ok (s.elements.flatMap all).head? := by rw [List.head?_flatMap]
          _ = .ok (ofList (s.elements.map all).flatten).elements.head? := by
            rw [ofList, head?_keepFirst, List.flatMap_def]
      simp only [ok_bind, hfound, hmany, pure_eq_ok, Except.map]
    | error f => cases f <;> rfl

namespace Meaning
variable {x : Engine} {e : String} {scope : Scope}

theorem findOne_eq (scope : Scope) (q : Query) :
    findOne scope q = findMany scope q >>= fun s => .ok s.elements.head? := by
  rw [findOne, findMany]
  cases q.selector with
  | none => rfl
  | some s =>
    simp only [Scope.findFirst?_eq hfirst]
    cases scope.findAll s <;> rfl

/-- An expression comes to the first of the values that it has in a list, or to absence if there is none. -/
theorem single_of_plural (hx : x.queryHook = none) {vs : List Value} (h : plural x e scope = .ok vs) :
    single x e scope = .ok (vs.head?.getD .null) := by
  obtain ⟨q, hq, h⟩ := bind_eq_ok.mp h
  obtain ⟨s, hs, h⟩ := bind_eq_ok.mp h
  have hall := mapM_eq_ok.mp h
  rw [single_eq hx, hq, ok_bind, takeOne, findOne_eq hfirst, hs, ok_bind, ok_bind]
  cases hes : s.elements with
  | nil =>
    rw [hes, List.forall₂_nil_left_iff] at hall
    rw [hall]
    rfl
  | cons el els =>
    rw [hes, List.forall₂_cons_left_iff] at hall
    obtain ⟨v, ws, hv, -, rfl⟩ := hall
    exact hv

end Meaning
end

namespace Meaning
variable [Css.Library] {x : Engine}

/-- A list of one expression has the values that are there. -/
theorem resolve_list_text (e : String) (scope : Scope) :
    resolve x (.list [.text e]) scope
      = plural x e scope >>= fun vs => .ok (.list (vs.filter (!·.isNull))) := by
  have hs : Schema.compile (.list [.text e]) = .ok (.list [.text e]) := by
    simp [Schema.compile, Schema.compileItems, Schema.asItem, Schema.toItem?]
  rw [resolve_ok hs, value, items]
  cases plural x e scope with
  | error f => rfl
  | ok vs => simp [items]

/-- A list of records with one field has a record for each value of its expression. -/
theorem resolve_list_field {k : String} (hk : k ≠ "$root") (e : String) (scope : Scope) :
    resolve x (.list [.map [(.text k, .text e)]]) scope
      = plural x e scope >>= fun vs =>
          .ok (.list ((vs.map fun v => Value.consField k v.present? []).map .ofRecord)) := by
  have he : Schema.compile (.text e) = .ok (.text e) := by simp [Schema.compile]
  have hm := Schema.compile_single hk he
  rw [resolve_ok (Schema.compile_list_mapping hm), value, items, columns, columns]
  cases plural x e scope with
  | error f => rfl
  | ok vs => simp [items, Columns.zip_single]

end Meaning

/-! ## Calls -/

/-- Looking for one and looking for all agree, if they do so in a single element. In any scope the first element found
is the first of all found, and one search fails when the other does. So, if no hook is asked about queries, wherever the
column of an expression comes to records, the expression itself comes to what the first record has, or to absence; and
unless it is absent, it is the first in the list of the values of the expression. -/
theorem Extractor.result_first [Css.Library] (hfirst : Css.Library.Consistent) (page : Element) (o : Options)
    (hq : o.queryHook = none) (history : List Call) :
    let x := (fresh page o).after history
    (∀ (s : Scope) (selector : String),
        s.findFirst? selector = (s.findAll selector).map fun (found, es) => (found.elements.head?, es))
      ∧ ∀ (scope : Option Scope) (k e : String), k ≠ "$root" →
        ∀ w, x.result (.list [.map [(.text k, .text e)]]) scope = .ok w →
          ∃ rs : List Value.Record, w = .list (rs.map .ofRecord)
            ∧ x.result (.text e) scope = .ok ((rs.head?.bind (·.lookup k)).getD .null)
            ∧ ∀ v, x.result (.text e) scope = .ok v → v ≠ .null →
              ∃ vs, x.result (.list [.text e]) scope = .ok (.list (v :: vs)) := by
  have hx : o.engine.queryHook = none := by simp [Options.engine, hq]
  refine ⟨Scope.findFirst?_eq hfirst, fun scope k e hk w h => ?_⟩
  have hs : Schema.compile (.text e) = .ok (.text e) := by simp [Schema.compile]
  simp only [result_after, Meaning.resolve_ok hs, Meaning.value, Meaning.resolve_list_text,
    Meaning.resolve_list_field hk] at h ⊢
  obtain ⟨vs, hvs, h⟩ := bind_eq_ok.mp h
  have hfirst := Meaning.single_of_plural hfirst hx hvs
  refine ⟨vs.map fun v => Value.consField k v.present? [], by simpa using h.symm, ?_, fun v hv hne => ?_⟩
  · rw [hfirst]
    cases vs with
    | nil => rfl
    | cons v vs => cases v <;> simp [Value.present?, Value.isNull, Value.consField]
  · rw [hfirst, Except.ok.injEq] at hv
    cases vs with
    | nil => exact absurd hv.symm hne
    | cons u us =>
      obtain rfl : u = v := hv
      have hkept : (!u.isNull) = true := by
        cases u with
        | null => exact absurd rfl hne
        | _ => rfl
      have hfilter : (u :: us).filter (!·.isNull) = u :: us.filter (!·.isNull) := List.filter_cons_of_pos hkept
      rw [hvs, ok_bind, hfilter]
      exact ⟨_, rfl⟩

/-- The one title of the sample page stands in the first record and first in the list. -/
theorem Extractor.result_first_sample :
    let x := (fresh Sample.page Sample.options).after []
    x.result (.list [.map [(.text "title", .text "b")]]) none = .ok (.list [.ofRecord [("title", .text "x")]])
      ∧ (∃ rs : List Value.Record, .list [.ofRecord [("title", .text "x")]] = Value.list (rs.map .ofRecord)
        ∧ x.result (.text "b") none = .ok ((rs.head?.bind (·.lookup "title")).getD .null))
      ∧ ∃ vs, x.result (.list [.text "b"]) none = .ok (.list (.text "x" :: vs)) := by
  have hrecords : ((fresh Sample.page Sample.options).after []).result
      (.list [.map [(.text "title", .text "b")]]) none = .ok (.list [.ofRecord [("title", .text "x")]]) := by
    rw [result_after, Option.getD_none, Meaning.resolve_list_field (by decide), Sample.plural_title]
    rfl
  have htitle : ((fresh Sample.page Sample.options).after []).result (.text "b") none = .ok (.text "x") := by
    rw [result_after, Option.getD_none, Meaning.resolve_ok (s := .text "b") (by simp [Schema.compile]), Meaning.value,
      Sample.single_page]
  obtain ⟨rs, hrs, hvalue, hlist⟩ :=
    (result_first Css.consistent Sample.page Sample.options rfl []).2 none "title" "b" (by decide) _ hrecords
  exact ⟨hrecords, ⟨rs, hrs, hvalue⟩, hlist _ htitle (by simp)⟩

end Harvest
