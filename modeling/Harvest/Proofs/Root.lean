import Harvest.Css.Match
import Harvest.Proofs.Formed
import Harvest.Proofs.Independence
import Harvest.Proofs.Twin

/-
  A root moves the scope, and does nothing else.

  Naming a root in a mapping is the same as working the mapping without it through what the root finds:
    * through the first match, or through the scope without elements if there is none;
    * in a list, through every match in turn, records without fields left out.
  `compile_rooted` says that the root stands beside the fields wherever it is written; from it the law follows in the
  memo-free meaning (`resolve_rooted`, `resolve_rooted_list`), and so for calls. Faults are the same on both sides.
-/
namespace Harvest
open Markup

/-- Whether a value is a mapping without entries. -/
def Value.isEmptyMap : Value → Bool
  | .map [] => true
  | _ => false

theorem Value.isBlank_ofRecord (r : Record) : (ofRecord r).isBlank = (ofRecord r).isEmptyMap := by
  cases r <;> rfl

/-! ## The root among the entries of a mapping -/

namespace Schema
variable {front back : Entries}

theorem compileFields_insert_root (v : Value) :
    compileFields (front ++ (rootKey, v) :: back) = compileFields (front ++ back) := by
  induction front with
  | nil => exact compileFields_root v back
  | cons e es ih =>
    obtain ⟨k, w⟩ := e
    cases k with
    | text k =>
      rw [List.cons_append, List.cons_append, compileFields, compileFields, ih]
    | _ => simp only [List.cons_append, compileFields]

theorem rootOf_eq_none (h : Value.find? rootKey (front ++ back) = none) : rootOf (front ++ back) = .ok none := by
  rw [rootOf, h]

theorem find?_insert_root (h : Value.find? rootKey (front ++ back) = none) (v : Value) :
    Value.find? rootKey (front ++ (rootKey, v) :: back) = some v := by
  induction front with
  | nil => simp [Value.find?, rootKey]
  | cons e es ih =>
    obtain ⟨k, w⟩ := e
    rw [List.cons_append, Value.find?] at h ⊢
    split at h
    · cases h
    · next hk => rw [if_neg hk, ih h]

theorem rootOf_insert_root (h : Value.find? rootKey (front ++ back) = none) {r : String} (hr : r ≠ "") :
    rootOf (front ++ (rootKey, .text r) :: back) = .ok (some r) := by
  rw [rootOf, find?_insert_root h]
  simp [hr]

/-- A mapping compiles to its fields, and with a root anywhere among its entries to the same fields below the root. -/
theorem compile_rooted (h : Value.find? rootKey (front ++ back) = none) {r : String} (hr : r ≠ "") {s : Compiled}
    (hs : compile (.map (front ++ back)) = .ok s) :
    ∃ fs, compile (.map (front ++ back)) = .ok (.mapping (.mk none fs (front ++ back)))
      ∧ compile (.map (front ++ (rootKey, .text r) :: back))
        = .ok (.mapping (.mk (some r) fs (front ++ (rootKey, .text r) :: back))) := by
  obtain ⟨root, fs, hroot, hfs, -⟩ := compile_map.mp hs
  refine ⟨fs, compile_map.mpr ⟨none, fs, rootOf_eq_none h, hfs, rfl⟩,
    compile_map.mpr ⟨some r, fs, rootOf_insert_root h hr, ?_, rfl⟩⟩
  rw [compileFields_insert_root, hfs]

end Schema

/-! ## Scopes below a root -/

namespace Meaning
variable [Css.Library] {x : Engine} {front back : Entries} {r : String} {s : Compiled}

theorem resolve_mapping (hx : x.mappingHook = none) {v : Value} {root : Option String}
    {fs : List (String × Compiled)} {source : Entries} (hv : Schema.compile v = .ok (.mapping (.mk root fs source)))
    (scope : Scope) :
    resolve x v scope = filled root (fun s => fields x (expanding x 0) s fs) scope := by
  rw [resolve_ok hv, value_expand hx _ (expanding x 0), value_mapping hx]

/-- A root means that the mapping without it is worked through its first match. -/
theorem resolve_rooted (hx : x.mappingHook = none) (hF : Value.find? Schema.rootKey (front ++ back) = none)
    (hs : Schema.compile (.map (front ++ back)) = .ok s) (hr : r ≠ "") {scope : Scope} {first : Option Element}
    {events : List Event} (h : scope.findFirst? r = .ok (first, events)) :
    resolve x (.map (front ++ (Schema.rootKey, .text r) :: back)) scope
      = resolve x (.map (front ++ back)) (.ofOption first) := by
  obtain ⟨fs, hplain, hrooted⟩ := Schema.compile_rooted hF hr hs
  rw [resolve_mapping hx hplain, resolve_mapping hx hrooted, filled, filled, narrow, narrow, h]
  rfl

/-- In a list a root means that the mapping without it is worked through every match, and that records without fields
are left out. -/
theorem resolve_rooted_list (hx : x.mappingHook = none) (hF : Value.find? Schema.rootKey (front ++ back) = none)
    (hs : Schema.compile (.map (front ++ back)) = .ok s) (hr : r ≠ "") {scope found : Scope} {events : List Event}
    (h : scope.findAll r = .ok (found, events)) :
    resolve x (.list [.map (front ++ (Schema.rootKey, .text r) :: back)]) scope = do
      let vs ← found.elements.mapM fun e => resolve x (.map (front ++ back)) (.of e)
      return .list (vs.filter (!·.isEmptyMap)) := by
  obtain ⟨fs, hplain, hrooted⟩ := Schema.compile_rooted hF hr hs
  -- all values are records, and of records only the empty ones are blank
  have hvs : ∀ fill : Scope → Except Fault Value.Record, ∀ vs : List Value,
      found.elements.mapM (fun e => filled none fill (.of e)) = .ok vs →
      vs.filter (!·.isBlank) = vs.filter (!·.isEmptyMap) := by
    intro fill vs hvs
    refine List.filter_congr fun v hv => ?_
    obtain ⟨e, -, he⟩ := exists_of_mapM hvs hv
    obtain ⟨_, q, -, -, rfl⟩ := filled_eq_ok.mp he
    rw [Value.isBlank_ofRecord]
  rw [resolve_ok (Schema.compile_list_mapping hrooted), value_expand hx _ (expanding x 0), value, items, records_eq hx, h]
  simp only [resolve_mapping hx hplain, Meaning.found, ok_bind, items]
  cases hm : found.elements.mapM fun e => filled none _ (.of e) with
  | error f => rfl
  | ok vs => simp [hvs _ vs hm]

end Meaning

/-! ## A page to try -/

namespace Sample

/-- A page of two items, of which the first has a title. -/
def page : Element := .document [.element ⟨"li", []⟩ [.element ⟨"b", []⟩ [.text "x"]], .element ⟨"li", []⟩ []]

/-- The level of the page as a whole. -/
def top (before after : List Node) : Markup.Level := ⟨0, ⟨Element.documentName, []⟩, before, after⟩

/-- The item with a title. -/
def first : Element := ⟨1, ⟨"li", []⟩, [.element ⟨"b", []⟩ [.text "x"]], [top [] [.element ⟨"li", []⟩ []]]⟩

/-- The title. -/
def title : Element := ⟨2, ⟨"b", []⟩, [.text "x"], ⟨1, ⟨"li", []⟩, [], []⟩ :: first.way⟩

/-- The item without one. -/
def second : Element := ⟨3, ⟨"li", []⟩, [], [top [.element ⟨"li", []⟩ [.element ⟨"b", []⟩ [.text "x"]]] []]⟩

theorem descendants_page : page.descendants = [first, title, second] := by
  simp [Element.descendants, page, Element.document, Element.within, countElements, first, title, second, top]

theorem read_item : Css.Library.read "li" = .ok (Css.Selector.finder [.one [.name "li"]]) := rfl

theorem findFirst_item : (Scope.of page).findFirst? "li" = .ok (some first, []) := by
  have hfind : Css.selectFirst? [.one [.name "li"]] page = some first := by
    rw [Css.selectFirst?, descendants_page]
    rfl
  simp [Scope.findFirst?, Scope.search, read_item, Css.Selector.finder, Scope.of, hfind]

theorem findAll_items : (Scope.of page).findAll "li" = .ok (.ofList [first, second], []) := by
  have hselect : Css.select [.one [.name "li"]] page = [first, second] := by
    rw [Css.select, descendants_page]
    rfl
  simp [Scope.findAll, Scope.search, read_item, Css.Selector.finder, Scope.of, hselect]

theorem elements_items : (Scope.ofList [first, second]).elements = [first, second] := rfl

end Sample

/-! ## Calls -/

/-- A root in a mapping, whatever stands around it, moves the scope to its first match, or to no element at all if it
has none. In a list it takes the mapping through each match, in order, and only empty records are left out. -/
theorem Extractor.result_rooted [Css.Library] (page : Element) (o : Options) (ho : o.mappingHook = none) (history : List Call)
    {front back : Entries} (hF : Value.find? Schema.rootKey (front ++ back) = none) {s : Compiled}
    (hs : Schema.compile (.map (front ++ back)) = .ok s) {r : String} (hr : r ≠ "") (scope : Scope) :
    let x := (fresh page o).after history
    let plain : Value := .map (front ++ back)
    let rooted : Value := .map (front ++ (Schema.rootKey, .text r) :: back)
    (∀ e events, scope.findFirst? r = .ok (some e, events) →
        x.result rooted (some scope) = x.result plain (some (.of e)))
      ∧ (∀ events, scope.findFirst? r = .ok (none, events) →
        x.result rooted (some scope) = x.result plain (some .empty))
      ∧ (∀ found events, scope.findAll r = .ok (found, events) →
        x.result (.list [rooted]) (some scope) = do
          let vs ← found.elements.mapM fun e => x.result plain (some (.of e))
          return .list (vs.filter (!·.isEmptyMap))) := by
  have hx : o.engine.mappingHook = none := by simp [Options.engine, ho]
  simp only [result_after, Option.getD_some]
  exact ⟨fun e events h => Meaning.resolve_rooted hx hF hs hr h, fun events h => Meaning.resolve_rooted hx hF hs hr h,
    fun found events h => Meaning.resolve_rooted_list hx hF hs hr h⟩

/-- The law on a page of two items: the root behind the field takes the mapping to the first of them, from nowhere to
nowhere, and in a list to both. -/
theorem Extractor.result_rooted_sample :
    let x := (fresh Sample.page Options.standard).after []
    let plain : Value := .map [(.text "title", .text "b")]
    let rooted : Value := .map [(.text "title", .text "b"), (Schema.rootKey, .text "li")]
    x.result rooted (some (.of Sample.page)) = x.result plain (some (.of Sample.first))
      ∧ x.result rooted (some .empty) = x.result plain (some .empty)
      ∧ x.result (.list [rooted]) (some (.of Sample.page)) = do
          let vs ← [Sample.first, Sample.second].mapM fun e => x.result plain (some (.of e))
          return .list (vs.filter (!·.isEmptyMap)) := by
  have hF : Value.find? Schema.rootKey ([(.text "title", .text "b")] ++ []) = none := rfl
  have law := result_rooted Sample.page Options.standard rfl [] hF rfl (r := "li") (by decide)
  have hall := (law (.of Sample.page)).2.2 _ _ Sample.findAll_items
  rw [Sample.elements_items] at hall
  exact ⟨(law (.of Sample.page)).1 _ _ Sample.findFirst_item, (law .empty).2.1 [] rfl, hall⟩

end Harvest
