import Harvest.Proofs.Addition

/-
  A list of records with one field tells the list of that field.

  The same values are met on two ways: as what an item adds to a list (`Schema.inList`), and as a column, of which each
  place makes a record (`Schema.inColumn`). A list leaves out what is absent, and below a root what is blank; a column
  keeps the place of everything, blank records counting as absent. So each item is found in the records again
  (`Item.ofRecords`):
    * the values of a text, and the records below a root, are what the records have under the name;
    * a mapping without a root has a record for each place, which is empty where the name is missing.
  Both ways begin with the same work (`Meaning.many`), and fail alike when it fails.
-/
namespace Harvest
open Markup

/-- The values that an item has in a list, told from the records that have it as their one field. -/
def Item.ofRecords {σ : Type} (k : String) (rs : List Value.Record) : Item σ → List Value
  | .text _ | .mapping (.mk (some _) _ _) => rs.filterMap (·.lookup k)
  | .mapping (.mk none _ _) => rs.map fun r => (r.lookup k).getD (.ofRecord [])

/-! ## Records with one field -/

namespace Value

theorem filterMap_present? (vs : List Value) : vs.filterMap present? = vs.filter (!·.isNull) := by
  have hguard : present? = Option.guard (!·.isNull) := by
    funext v
    cases v <;> rfl
  rw [hguard, List.filterMap_eq_filter]

theorem filterMap_present?_blankToNull (vs : List Value) :
    (vs.map blankToNull).filterMap present? = vs.filter (!·.isBlank) := by
  have hguard : present? ∘ blankToNull = Option.guard (!·.isBlank) := by
    funext v
    show (blankToNull v).present? = Option.guard (!·.isBlank) v
    cases hv : v.isBlank with
    | true => simp [blankToNull, hv, Option.guard, present?, isNull]
    | false => simp [blankToNull, hv, Option.guard, present?_of_ne (ne_of_isBlank hv).1]
  rw [List.filterMap_map, hguard, List.filterMap_eq_filter]

/-- What records with one field have under its name. -/
theorem filterMap_lookup (k : String) (vs : List Value) :
    (vs.map fun v => consField k v.present? []).filterMap (·.lookup k) = vs.filterMap present? := by
  rw [List.filterMap_map]
  apply List.filterMap_congr
  intro v _
  exact lookup_consField_self List.not_mem_nil

/-- A record that counts as absent when it is empty is found again, absence counting as the empty record. -/
theorem map_lookup_ofRecord (k : String) (rs : List Record) :
    (((rs.map ofRecord).map blankToNull).map fun v => consField k v.present? []).map
        (fun r => (r.lookup k).getD (ofRecord [])) = rs.map ofRecord := by
  simp only [List.map_map]
  apply List.map_congr_left
  intro r _
  show ((consField k (blankToNull (ofRecord r)).present? []).lookup k).getD (ofRecord []) = ofRecord r
  rw [lookup_consField_self List.not_mem_nil]
  cases r with
  | nil => rfl
  | cons f r => rfl

end Value

namespace Meaning
variable [Css.Library] {x : Engine} {expand : Expansion} {scope : Scope}

/-- What an item comes to, as the members of a list, is found in the records of its column. -/
theorem inList_eq_ofRecords {i : Item Entries} {us : List Value} (h : many x expand scope i.toSchema = .ok us)
    (k : String) :
    i.toSchema.inList us
      = i.ofRecords k ((i.toSchema.inColumn us).map fun v => Value.consField k v.present? []) := by
  match i with
  | .text e => exact ((Value.filterMap_lookup k us).trans (Value.filterMap_present? us)).symm
  | .mapping (.mk (some r) fs source) =>
    exact ((Value.filterMap_lookup k _).trans (Value.filterMap_present?_blankToNull us)).symm
  | .mapping (.mk none fs source) =>
    rw [Item.toSchema, many] at h
    obtain ⟨cs, -, h⟩ := bind_eq_ok.mp h
    obtain rfl : cs.zip.map Value.ofRecord = us := by simpa using h
    exact (Value.map_lookup_ofRecord k cs.zip).symm

end Meaning

/-! ## Calls -/

/-- The list of an item and the list of records that have it as their one field tell the same: both calls fail alike, or
both give lists, and the former is found in the records of the latter. So it is what the records have under the name, in
order; or, for a mapping without a root, it has a member for each record, which is empty where the name is missing. -/
theorem Extractor.result_one_column [Css.Library] (page : Element) (o : Options) (hm : o.mappingHook = none) (history : List Call)
    {k : String} (hk : k ≠ "$root") {c : Value} {i : Item Entries} (hc : Schema.compile c = .ok i.toSchema)
    (scope : Option Scope) :
    Agree (fun w w' => ∃ rs : List Value.Record, w' = .list (rs.map .ofRecord) ∧ w = .list (i.ofRecords k rs))
      (((fresh page o).after history).result (.list [c]) scope)
      (((fresh page o).after history).result (.list [.map [(.text k, c)]]) scope) := by
  have hx : o.engine.mappingHook = none := by simp [Options.engine, hm]
  rw [result_after, result_after, Meaning.resolve_list_item hx hc, Meaning.resolve_list_single hx hk hc, Meaning.item,
    Meaning.column, bind_assoc, bind_assoc]
  apply Agree.bind_same
  intro us hus
  refine .ok ⟨_, rfl, ?_⟩
  rw [Meaning.inList_eq_ofRecords hus k]

/-- The one item of the sample page that has a title, from the records of a column of the items. -/
theorem Extractor.result_one_column_sample :
    let x := (fresh Sample.page Sample.options).after []
    x.result (.list [.map Sample.titles]) none = .ok (.list [.ofRecord [("title", .text "x")]])
      ∧ ∃ rs : List Value.Record,
        x.result (.list [.map [(.text "item", .map Sample.titles)]]) none = .ok (.list (rs.map .ofRecord))
          ∧ rs.filterMap (·.lookup "item") = [.ofRecord [("title", .text "x")]] := by
  have law := result_one_column Sample.page Sample.options rfl [] (k := "item") (by decide) (c := .map Sample.titles)
    (i := .mapping Sample.titled) rfl none
  have htitles : ((fresh Sample.page Sample.options).after []).result (.list [.map Sample.titles]) none = _ :=
    Sample.result_titles
  rw [htitles] at law
  obtain ⟨_, hrecords, rs, rfl, hlist⟩ := law.exists_ok
  refine ⟨htitles, rs, hrecords, ?_⟩
  injection hlist with hlist
  exact hlist.symm

end Harvest
