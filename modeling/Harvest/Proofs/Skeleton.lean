import Harvest.Proofs.Addition
import Harvest.Proofs.Totality

/-
  What a schema comes to where there is nothing to read.

  In the scope without elements no search reads its selector, and no filter meets an element. What is left of a schema
  is its skeleton: absence for a text, a list without members for a list, and for a mapping the record of its fields but
  for those that are texts.
    1. `Meaning.value_empty`, and its companion on fields, go down a schema where one value is wanted. Every root on the
       way narrows the empty scope to itself.
    2. `Meaning.many_empty` and `Meaning.columns_empty` do the same where many values are wanted: all columns are empty,
       and so they make no record.
    3. `Extractor.result_nowhere` — so a schema gives its skeleton under the standard patterns, whatever filters there
       are, since with these patterns every expression can be read.
-/
namespace Harvest
open Markup

/-- The fields of a mapping that are no texts, in order, each with what is left of it. -/
def skeletonFields {σ : Type} : List (String × Schema σ) → Value.Record
  | [] => []
  | (_, .text _) :: fs => skeletonFields fs
  | (k, .mapping (.mk _ gs _)) :: fs => (k, .ofRecord (skeletonFields gs)) :: skeletonFields fs
  | (k, .list _) :: fs => (k, .list []) :: skeletonFields fs

/-- What is left of a schema without its texts. -/
def Schema.skeleton {σ : Type} : Schema σ → Value
  | .text _ => .null
  | .mapping (.mk _ fs _) => .ofRecord (skeletonFields fs)
  | .list _ => .list []

/-- A field of a skeleton is the skeleton of the field. -/
theorem skeletonFields_cons {σ : Type} (k : String) (s : Schema σ) (fs : List (String × Schema σ)) :
    skeletonFields ((k, s) :: fs) = withField k s.skeleton (skeletonFields fs) := by
  match s with
  | .text e => rw [skeletonFields, Schema.skeleton]; rfl
  | .mapping (.mk root gs source) => rw [skeletonFields, Schema.skeleton]; rfl
  | .list is => rw [skeletonFields, Schema.skeleton]; rfl

/-- Columns without values make no record. -/
theorem Columns.zip_of_blank {cs : Columns} (h : ∀ c ∈ cs, c.2 = []) : cs.zip = [] := by
  have hheight : cs.height = 0 := by
    induction cs with
    | nil => rfl
    | cons c cs ih =>
      obtain ⟨hc, hcs⟩ := List.forall_mem_cons.mp h
      rw [Columns.height, hc, ih hcs]
      rfl
  rw [← List.length_eq_zero_iff, Columns.length_zip, hheight]

namespace Meaning
variable {x : Engine}

/-! ## Searches -/

section
variable [Css.Library] {expand : Expansion}

theorem narrow_empty (root : Option String) : narrow root .empty = .ok .empty := by
  cases root with
  | none => rfl
  | some r => rfl

theorem takeOne_empty (q : Query) : takeOne .empty q = .ok .null := by
  rw [takeOne, findOne]
  cases q.selector with
  | none => rfl
  | some s => rfl

theorem findMany_empty (q : Query) : findMany .empty q = .ok .empty := by
  rw [findMany]
  cases q.selector with
  | none => rfl
  | some s => rfl

/-! ## Schemas -/

mutual

/-- Nothing is found of what is wanted many times. -/
theorem many_empty (hread : ∀ e, ∃ q, query x e = .ok q) : ∀ s : Compiled, many x expand .empty s = .ok []
  | .text e => by
    obtain ⟨q, hq⟩ := hread e
    rw [many, plural, hq, ok_bind, findMany_empty]
    rfl
  | .mapping (.mk (some r) fs source) => by
    rw [many, records]
    rfl
  | .mapping (.mk none fs source) => by
    have hblank : ∀ c ∈ fs.map fun f => (f.1, ([] : List Value)), c.2 = [] := by simp
    rw [many, columns_empty hread fs, ok_bind, Columns.zip_of_blank hblank]
    rfl
  | .list is => by rw [many]

/-- All columns are empty. -/
theorem columns_empty (hread : ∀ e, ∃ q, query x e = .ok q) : ∀ fs : List (String × Compiled),
    columns x expand .empty fs = .ok (fs.map fun f => (f.1, []))
  | [] => by rw [columns]; rfl
  | (k, s) :: fs => by
    have hcolumn : s.inColumn [] = [] := by cases s <;> rfl
    rw [columns_cons, column, many_empty hread s, columns_empty hread fs]
    simp only [ok_bind, pure_eq_ok, hcolumn, List.map_cons]

end

theorem items_empty (hread : ∀ e, ∃ q, query x e = .ok q) (is : List (Item Entries)) :
    items x expand .empty is = .ok [] := by
  induction is with
  | nil => rw [items]
  | cons i is ih =>
    have hitem : i.toSchema.inList [] = [] := by
      match i with
      | .text _ | .mapping (.mk (some _) _ _) | .mapping (.mk none _ _) => rfl
    rw [items_cons, item, many_empty hread, ih]
    simp only [ok_bind, pure_eq_ok, hitem, List.append_nil]

end

/-- An engine without hooks that can read every expression. -/
structure Readable (x : Engine) : Prop where
  query : ∀ e, ∃ q, query x e = .ok q
  unhookedQuery : x.queryHook = none
  unhookedMapping : x.mappingHook = none

section
variable [Css.Library] {expand : Expansion}

mutual

/-- In the empty scope a schema comes to its skeleton. -/
theorem value_empty (hx : Readable x) : ∀ s : Compiled, value x expand .empty s = .ok s.skeleton
  | .text e => by
    obtain ⟨q, hq⟩ := hx.query e
    rw [value, single_eq hx.unhookedQuery, hq, ok_bind, takeOne_empty, Schema.skeleton]
  | .mapping (.mk root fs source) => by
    rw [value_mapping hx.unhookedMapping, filled, narrow_empty, ok_bind, fields_empty hx fs, Schema.skeleton]
    rfl
  | .list is => by
    rw [value, items_empty hx.query, Schema.skeleton]
    rfl

theorem fields_empty (hx : Readable x) : ∀ fs : List (String × Compiled),
    fields x expand .empty fs = .ok (skeletonFields fs)
  | [] => by rw [fields, skeletonFields]
  | (k, s) :: fs => by
    rw [fields, value_empty hx s, ok_bind, fields_empty hx fs, skeletonFields_cons]
    rfl

end

theorem resolve_empty (hx : Readable x) {v : Value} {s : Compiled} (hv : Schema.compile v = .ok s) :
    resolve x v .empty = .ok s.skeleton := by
  rw [resolve_ok hv, value_empty hx]

/-- A mapping whose root has no match is filled in where there is nothing to read. -/
theorem resolve_no_match (hx : Readable x) {v : Value} {root : String} {fs : List (String × Compiled)}
    {source : Entries} (hv : Schema.compile v = .ok (.mapping (.mk (some root) fs source))) {scope : Scope}
    {events : List Event} (h : scope.findFirst? root = .ok (none, events)) :
    resolve x v scope = .ok (Schema.mapping (.mk (some root) fs source)).skeleton := by
  have hnarrow : narrow (some root) scope = .ok .empty := by
    rw [narrow, h]
    rfl
  rw [resolve_ok hv, value_mapping hx.unhookedMapping, filled, hnarrow, ok_bind, fields_empty hx, Schema.skeleton]
  rfl

end

/-- Every expression can be read where the patterns have the groups that they need, whatever filters there are. -/
theorem readable_of_groups {d : Dialect} (hselector : 2 ≤ d.selectorPattern.groups)
    (hseparator : d.filterSeparator.groups = 0) : Readable (Options.engine ⟨d, none, none⟩) := by
  refine ⟨fun e => ?_, rfl, rfl⟩
  obtain ⟨⟨q, events⟩, hread⟩ := Dialect.exists_read hselector (Dialect.not_gapped_of_no_groups hseparator e)
  refine ⟨q, ?_⟩
  simp only [query, Options.engine, hread]

theorem readable_standard (r : Registry) (separator : String) :
    Readable (Options.engine ⟨{ r.dialect with argumentSeparator := separator }, none, none⟩) := by
  have hdialect := r.dialect_eq
  apply readable_of_groups
  · simp only [hdialect]
    exact Nat.le_refl 2
  · simp only [hdialect]
    rfl

end Meaning

/-! ## Calls -/

/-- Nothing in, skeleton out. Under the standard patterns and without hooks, every schema gives its skeleton in the
empty scope, whatever its selectors are, and whatever the filters do: also if all selectors are refused and all filters
fail. So does a mapping whose root has no match, in every scope of every page. -/
theorem Extractor.result_nowhere [Css.Library] (page : Element) (r : Registry) (separator : String)
    (history : List Call) {v : Value} {s : Compiled} (hs : Schema.compile v = .ok s) :
    let x := (fresh page ⟨{ r.dialect with argumentSeparator := separator }, none, none⟩).after history
    x.result v (some .empty) = .ok s.skeleton
      ∧ ∀ root fs source, s = .mapping (.mk (some root) fs source) → ∀ (scope : Option Scope) (events : List Event),
        (scope.getD (.of page)).findFirst? root = .ok (none, events) → x.result v scope = .ok s.skeleton := by
  have hx := Meaning.readable_standard r separator
  intro x
  constructor
  · rw [result_after]
    exact Meaning.resolve_empty hx hs
  · intro root fs source hmapping scope events hfind
    subst hmapping
    rw [result_after]
    exact Meaning.resolve_no_match hx hs hfind

namespace Sample

/-- A filter that fails whatever it is given. -/
def refusing : Registry := [("refuse", ⟨"refuse", fun _ _ => .error (.tooMany ⟨"refuse", [], 0⟩ 1)⟩)]

/-- Selectors that are refused, that are none, and that match nothing, and filters that fail. -/
def forlorn : Value :=
  .map [(Schema.rootKey, .text "table"), (.text "title", .text "p::before | refuse"),
    (.text "more", .map [(Schema.rootKey, .text "[["), (.text "none", .text "b | refuse")]),
    (.text "items", .list [.text "p::before", .map titles])]

theorem findFirst_table : (Scope.of page).findFirst? "table" = .ok (none, []) := by
  have hread : Css.Library.read "table" = .ok (Css.Selector.finder [.one [.name "table"]]) := rfl
  have hfind : Css.selectFirst? [.one [.name "table"]] page = none := by
    rw [Css.selectFirst?, descendants_page]
    rfl
  simp [Scope.findFirst?, Scope.search, hread, Css.Selector.finder, Scope.of, hfind]

end Sample

/-- The sample page has no table, so what is left is the skeleton. -/
theorem Extractor.result_nowhere_sample :
    let x := (fresh Sample.page ⟨{ Sample.refusing.dialect with argumentSeparator := "," }, none, none⟩).after []
    let skeleton : Value := .ofRecord [("more", .ofRecord []), ("items", .list [])]
    (Scope.of Sample.page).findFirst? "table" = .ok (none, [])
      ∧ x.result Sample.forlorn none = .ok skeleton ∧ x.result Sample.forlorn (some .empty) = .ok skeleton := by
  have hs : Schema.compile Sample.forlorn = .ok (.mapping (.mk (some "table")
    [("title", .text "p::before | refuse"), ("more", .mapping (.mk (some "[[") [("none", .text "b | refuse")] _)),
      ("items", .list [.text "p::before", .mapping Sample.titled])] _)) := rfl
  have law := result_nowhere Sample.page Sample.refusing "," [] hs
  simp only [Schema.skeleton, skeletonFields] at law
  exact ⟨Sample.findFirst_table, law.2 _ _ _ rfl none [] Sample.findFirst_table, law.1⟩

end Harvest
