import Harvest.Proofs.Meaning
import Harvest.Proofs.Record

/-
  Records and columns, one field at a time.

  A record takes the value of each field, unless it is absent (`fields_eq_ok`). Where many values are wanted (`many`),
  each field makes one column (`column`), and the columns stand in the order of the fields (`columns_eq_ok`). So a
  record, or the columns, come to something exactly if all fields do, whatever their order. The items of a list add what
  they come to one after the other (`items_cons`).
-/
namespace Harvest
open Markup

/-- Things under one name that belong together. -/
def Paired {α β : Type} (R : α → β → Prop) (f : String × α) (g : String × β) : Prop := f.1 = g.1 ∧ R f.2 g.2

theorem Paired.names {α β : Type} {R : α → β → Prop} {fs : List (String × α)} {gs : List (String × β)}
    (h : List.Forall₂ (Paired R) fs gs) : gs.map (·.1) = fs.map (·.1) := by
  induction h with
  | nil => rfl
  | cons hfg _ ih => rw [List.map_cons, List.map_cons, hfg.1, ih]

/-- The values of a schema as they stand in a column, where records without fields count as absent. -/
def Schema.inColumn : Compiled → List Value → List Value
  | .mapping _, vs => vs.map blankToNull
  | .text _, vs | .list _, vs => vs

/-- The values of a schema as they stand in a list, where what is absent is left out, and below a root what is blank. -/
def Schema.inList : Compiled → List Value → List Value
  | .text _, vs => vs.filter (!·.isNull)
  | .mapping (.mk (some _) _ _), vs => vs.filter (!·.isBlank)
  | .mapping (.mk none _ _), vs | .list _, vs => vs

namespace Meaning

variable [Css.Library] {x : Engine} {expand : Expansion} {scope : Scope} {fs : List (String × Compiled)}

/-- The values of a schema where many are wanted. A list has none, since lists neither nest nor are aligned. -/
def many (x : Engine) (expand : Expansion) (scope : Scope) : Compiled → Except Fault (List Value)
  | .text e => plural x e scope
  | .mapping (.mk (some r) fs source) => records x expand source r (fun s => fields x expand s fs) scope
  | .mapping (.mk none fs _) => do
    let cs ← columns x expand scope fs
    return cs.zip.map Value.ofRecord
  | .list _ => .ok []

/-- The column that a field makes. -/
def column (x : Engine) (expand : Expansion) (scope : Scope) (s : Compiled) : Except Fault (List Value) := do
  return s.inColumn (← many x expand scope s)

theorem column_eq_ok {s : Compiled} {vs : List Value} :
    column x expand scope s = .ok vs ↔ ∃ us, many x expand scope s = .ok us ∧ vs = s.inColumn us := by
  rw [column, bind_eq_ok]
  simp [eq_comm]

theorem columns_cons (k : String) (s : Compiled) (fs : List (String × Compiled)) :
    columns x expand scope ((k, s) :: fs) = do
      let vs ← column x expand scope s
      return (k, vs) :: (← columns x expand scope fs) := by
  match s with
  | .text e => rw [columns, column, bind_assoc]; rfl
  | .mapping (.mk (some r) gs source) => rw [columns, column, bind_assoc]; rfl
  | .mapping (.mk none gs source) => rw [columns, column, many, bind_assoc, bind_assoc]; rfl
  | .list is => rw [columns, column, bind_assoc]; rfl

/-- What an item adds to its list. -/
def item (x : Engine) (expand : Expansion) (scope : Scope) (s : Compiled) : Except Fault (List Value) := do
  return s.inList (← many x expand scope s)

theorem item_eq_ok {s : Compiled} {vs : List Value} :
    item x expand scope s = .ok vs ↔ ∃ us, many x expand scope s = .ok us ∧ vs = s.inList us := by
  rw [item, bind_eq_ok]
  simp [eq_comm]

theorem items_cons (i : Item Entries) (is : List (Item Entries)) :
    items x expand scope (i :: is) = do
      let vs ← item x expand scope i.toSchema
      return vs ++ (← items x expand scope is) := by
  match i with
  | .text e => rw [items, item, bind_assoc]; rfl
  | .mapping (.mk (some r) fs source) => rw [items, item, bind_assoc]; rfl
  | .mapping (.mk none fs source) => rw [items, Item.toSchema, item, many, bind_assoc, bind_assoc]; rfl

/-- A record holds the values of its fields that are not absent. -/
theorem fields_eq_ok {r : Value.Record} :
    fields x expand scope fs = .ok r ↔ ∃ ps : Value.Record,
      List.Forall₂ (Paired fun s v => value x expand scope s = .ok v) fs ps ∧ r = ps.filter (!·.2.isNull) := by
  induction fs generalizing r with
  | nil => simp [fields, eq_comm]
  | cons f fs ih =>
    obtain ⟨k, s⟩ := f
    rw [fields, bind_eq_ok]
    constructor
    · rintro ⟨v, hv, h⟩
      obtain ⟨q, hq, h⟩ := bind_eq_ok.mp h
      obtain ⟨ps, hps, rfl⟩ := ih.mp hq
      cases h
      refine ⟨(k, v) :: ps, .cons ⟨rfl, hv⟩ hps, ?_⟩
      rw [withField, List.filter_cons]
      cases v.isNull <;> rfl
    · rintro ⟨_, hall, rfl⟩
      obtain ⟨⟨j, v⟩, ps, ⟨rfl, hv⟩, hps, rfl⟩ := List.forall₂_cons_left_iff.mp hall
      refine ⟨v, hv, bind_eq_ok.mpr ⟨_, ih.mpr ⟨ps, hps, rfl⟩, ?_⟩⟩
      rw [withField, List.filter_cons]
      cases v.isNull <;> rfl

/-- The columns are those that the fields make, in their order. -/
theorem columns_eq_ok {cs : Columns} :
    columns x expand scope fs = .ok cs ↔ List.Forall₂ (Paired fun s vs => column x expand scope s = .ok vs) fs cs := by
  induction fs generalizing cs with
  | nil => simp [columns, eq_comm]
  | cons f fs ih =>
    obtain ⟨k, s⟩ := f
    rw [columns_cons, bind_eq_ok, List.forall₂_cons_left_iff]
    constructor
    · rintro ⟨vs, hvs, h⟩
      obtain ⟨ds, hds, h⟩ := bind_eq_ok.mp h
      exact ⟨(k, vs), ds, ⟨rfl, hvs⟩, ih.mp hds, by simpa using h.symm⟩
    · rintro ⟨⟨j, vs⟩, ds, ⟨hj, hvs⟩, hds, rfl⟩
      obtain rfl : k = j := hj
      exact ⟨vs, hvs, bind_eq_ok.mpr ⟨ds, ih.mpr hds, rfl⟩⟩

end Meaning
end Harvest
