import Harvest.Proofs.Fallible
import Harvest.Schema.Compile

/-
  Values as callers build them, and the schemas that they write down.

  The entries of a mapping have keys of their own (`Value.Formed`). Then the fields of each mapping of a compiled schema
  have names of their own, none of them the key of the root (`Schema.Proper`); this is also asked of a compiled schema
  that stands inside a value.
    1. `compile_map`, `compileFields_eq_ok` and `compileItems_eq_ok` say when a value compiles and to what.
    2. `Formed.proper` — what a formed value compiles to is proper.
-/
namespace Harvest

/-! ## Keys -/

namespace Value

theorem keyNumber?_text (k : String) : keyNumber? (.text k) = none := rfl

theorem sameKey_text {v : Value} {k : String} : sameKey v (.text k) = true ↔ v = .text k := by
  cases v with
  | text s => simp [sameKey]
  | bool b => simp [sameKey, keyNumber?]
  | int i => simp [sameKey, keyNumber?]
  | real x => cases h : keyNumber? (.real x) <;> simp [sameKey, h, keyNumber?_text]
  | _ => simp [sameKey]

@[simp] theorem sameKey_texts (j k : String) : sameKey (.text j) (.text k) = (j == k) := by simp [sameKey]

theorem without_cons_same {k : String} {v : Value} {es : Entries} :
    without (.text k) ((.text k, v) :: es) = without (.text k) es := by simp [without]

theorem without_cons_other {k : String} {l v : Value} {es : Entries} (h : l ≠ .text k) :
    without (.text k) ((l, v) :: es) = (l, v) :: without (.text k) es := by
  have hl : sameKey l (.text k) = false := by simpa using mt sameKey_text.mp h
  simp [without, hl]

theorem without_without (k : Value) (es : Entries) : without k (without k es) = without k es := by
  simp [without, List.filter_filter]

theorem ne_of_mem_without {k : String} {es : Entries} {e : Value × Value} (h : e ∈ without (.text k) es) :
    e.1 ≠ .text k := by
  intro he
  have hs : (!sameKey e.1 (.text k)) = true := (List.mem_filter.mp h).2
  simp [he] at hs

end Value

/-! ## Compiling mappings and lists -/

namespace Schema

theorem compile_map {es : Entries} {s : Compiled} :
    compile (.map es) = .ok s ↔
      ∃ root fs, rootOf es = .ok root ∧ compileFields es = .ok fs ∧ s = .mapping (.mk root fs es) := by
  rw [compile]
  constructor
  · intro h
    obtain ⟨root, hr, h⟩ := bind_eq_ok.mp h
    obtain ⟨fs, hf, h⟩ := bind_eq_ok.mp h
    exact ⟨root, fs, hr, hf, by simpa using h.symm⟩
  · rintro ⟨root, fs, hr, hf, rfl⟩
    rw [hr, ok_bind, hf, ok_bind, pure_eq_ok]

theorem compileFields_root (v : Value) (es : Entries) : compileFields ((rootKey, v) :: es) = compileFields es := by
  rw [rootKey, compileFields, if_pos (by simp)]

theorem compileFields_cons {k : String} (hk : k ≠ "$root") (v : Value) (es : Entries) :
    compileFields ((.text k, v) :: es) = do return (k, ← compile v) :: (← compileFields es) := by
  rw [compileFields, if_neg (by simpa using hk)]

/-- A key that is no text names no field. -/
theorem compileFields_other {l : Value} (hl : ∀ k, l ≠ .text k) (v : Value) (es : Entries) :
    compileFields ((l, v) :: es) = .error (.ofName l) := by
  cases l with
  | text k => exact absurd rfl (hl k)
  | _ => rw [compileFields]; simp

/-- Each entry of a mapping but the root makes a field. -/
theorem compileFields_eq_ok {es : Entries} {fs : List (String × Compiled)} :
    compileFields es = .ok fs ↔
      List.Forall₂ (fun e f => e.1 = .text f.1 ∧ compile e.2 = .ok f.2) (Value.without rootKey es) fs := by
  induction es generalizing fs with
  | nil => simp [compileFields, Value.without, eq_comm]
  | cons e es ih =>
    obtain ⟨l, v⟩ := e
    by_cases hl : ∃ k, l = .text k
    · obtain ⟨k, rfl⟩ := hl
      by_cases hk : k = "$root"
      · subst hk
        rw [← rootKey, compileFields_root, ih, rootKey, Value.without_cons_same]
      · rw [compileFields_cons hk, rootKey, Value.without_cons_other (by simpa using hk),
          List.forall₂_cons_left_iff, bind_eq_ok]
        constructor
        · rintro ⟨s, hs, h⟩
          obtain ⟨gs, hgs, h⟩ := bind_eq_ok.mp h
          exact ⟨(k, s), gs, ⟨rfl, hs⟩, ih.mp hgs, by simpa using h.symm⟩
        · rintro ⟨⟨j, s⟩, gs, ⟨hj, hs⟩, hgs, rfl⟩
          obtain rfl : k = j := by simpa using hj
          exact ⟨s, hs, bind_eq_ok.mpr ⟨gs, ih.mpr hgs, rfl⟩⟩
    · -- a key that is no text is a fault, and no field is named by it
      have hne : ∀ k, l ≠ .text k := not_exists.mp hl
      rw [compileFields_other hne, rootKey, Value.without_cons_other (hne _), List.forall₂_cons_left_iff]
      constructor
      · intro h; cases h
      · rintro ⟨g, gs, ⟨hg, -⟩, -⟩
        exact absurd hg (hne _)

theorem asItem_eq_ok {s : Compiled} {i : Item Entries} : asItem s = .ok i ↔ s = i.toSchema := by
  cases s <;> cases i <;> simp [asItem, toItem?, Item.toSchema]

/-- Each member of a list makes an item. -/
theorem compileItems_eq_ok {vs : List Value} {is : List (Item Entries)} :
    compileItems vs = .ok is ↔ List.Forall₂ (fun v i => compile v = .ok i.toSchema) vs is := by
  induction vs generalizing is with
  | nil => simp [compileItems, eq_comm]
  | cons v vs ih =>
    rw [compileItems, List.forall₂_cons_left_iff, bind_eq_ok]
    constructor
    · rintro ⟨s, hs, h⟩
      obtain ⟨i, hi, h⟩ := bind_eq_ok.mp h
      obtain ⟨js, hjs, h⟩ := bind_eq_ok.mp h
      exact ⟨i, js, by rw [hs, asItem_eq_ok.mp hi], ih.mp hjs, by simpa using h.symm⟩
    · rintro ⟨i, js, hi, hjs, rfl⟩
      refine ⟨_, hi, bind_eq_ok.mpr ⟨i, asItem_eq_ok.mpr rfl, bind_eq_ok.mpr ⟨js, ih.mpr hjs, rfl⟩⟩⟩

theorem compile_list {vs : List Value} {s : Compiled} :
    compile (.list vs) = .ok s ↔ ∃ is, compileItems vs = .ok is ∧ s = .list is := by
  rw [compile, bind_eq_ok]
  simp [eq_comm]

theorem compile_list_eq_ok {vs : List Value} {is : List (Item Entries)} :
    compile (.list vs) = .ok (.list is) ↔ List.Forall₂ (fun v i => compile v = .ok i.toSchema) vs is := by
  rw [compile_list, ← compileItems_eq_ok]
  simp

theorem compile_tuple {vs : List Value} {s : Compiled} :
    compile (.tuple vs) = .ok s ↔ ∃ is, compileItems vs = .ok is ∧ s = .list is := by
  rw [compile, bind_eq_ok]
  simp [eq_comm]

/-- A mapping of one field. -/
theorem compile_single {k : String} (hk : k ≠ "$root") {v : Value} {s : Compiled} (h : compile v = .ok s) :
    compile (.map [(.text k, v)]) = .ok (.mapping (.mk none [(k, s)] [(.text k, v)])) := by
  refine compile_map.mpr ⟨none, _, ?_, ?_, rfl⟩
  · simp [rootOf, Value.find?, rootKey, Value.sameKey, hk]
  · rw [compileFields_cons hk, h]
    rfl

/-- A list of one item. -/
theorem compile_list_item {v : Value} {i : Item Entries} (h : compile v = .ok i.toSchema) :
    compile (.list [v]) = .ok (.list [i]) := compile_list_eq_ok.mpr (.cons h .nil)

theorem compile_list_mapping {v : Value} {m : Mapping Entries} (h : compile v = .ok (.mapping m)) :
    compile (.list [v]) = .ok (.list [.mapping m]) := compile_list_item (i := .mapping m) h

end Schema

/-! ## Proper schemas and formed values -/

mutual

/-- In each mapping of a schema the fields have names of their own, other than the key of the root. -/
def Schema.Proper {σ : Type} : Schema σ → Prop
  | .text _ => True
  | .mapping (.mk _ fs _) => ProperFields fs
  | .list is => ProperItems is

/-- The same of fields and within them. -/
def ProperFields {σ : Type} : List (String × Schema σ) → Prop
  | [] => True
  | (k, s) :: fs => k ≠ "$root" ∧ k ∉ fs.map (·.1) ∧ s.Proper ∧ ProperFields fs

/-- The same within items. -/
def ProperItems {σ : Type} : List (Item σ) → Prop
  | [] => True
  | .text _ :: is => ProperItems is
  | .mapping (.mk _ fs _) :: is => ProperFields fs ∧ ProperItems is

end

/-- A value as callers build it: the keys of each mapping are different, and each compiled schema is proper. -/
inductive Value.Formed : Value → Prop where
  | null : Formed .null
  | bool (b : Bool) : Formed (.bool b)
  | int (i : Int) : Formed (.int i)
  | real (x : Double) : Formed (.real x)
  | text (s : String) : Formed (.text s)
  | other (k : String) : Formed (.other k)
  | list {vs : List Value} (members : ∀ v ∈ vs, Formed v) : Formed (.list vs)
  | tuple {vs : List Value} (members : ∀ v ∈ vs, Formed v) : Formed (.tuple vs)
  | map {es : Entries} (distinct : es.Pairwise fun d e => sameKey d.1 e.1 = false)
      (members : ∀ e ∈ es, Formed e.2) : Formed (.map es)
  | schema {s : Compiled} (proper : s.Proper) : Formed (.schema s)

theorem ProperFields.nodup {σ : Type} : ∀ {fs : List (String × Schema σ)}, ProperFields fs → (fs.map (·.1)).Nodup
  | [], _ => List.nodup_nil
  | (_, _) :: _, h => List.nodup_cons.mpr ⟨h.2.1, ProperFields.nodup h.2.2.2⟩

theorem ProperFields.root_not_mem {σ : Type} :
    ∀ {fs : List (String × Schema σ)}, ProperFields fs → "$root" ∉ fs.map (·.1)
  | [], _ => by simp
  | (k, _) :: _, h => by
    rw [List.map_cons, List.mem_cons, not_or]
    exact ⟨fun he => h.1 he.symm, ProperFields.root_not_mem h.2.2.2⟩

namespace Value.Formed

/-- Fields made from entries with keys of their own have names of their own. -/
theorem properFields {es : Entries} {fs : List (String × Compiled)}
    (h : List.Forall₂ (fun e f => e.1 = .text f.1 ∧ Schema.compile e.2 = .ok f.2) es fs)
    (distinct : es.Pairwise fun d e => sameKey d.1 e.1 = false) (root : ∀ e ∈ es, e.1 ≠ Schema.rootKey)
    (ih : ∀ e ∈ es, ∀ s, Schema.compile e.2 = .ok s → s.Proper) : ProperFields fs := by
  induction h with
  | nil => trivial
  | @cons e f es fs hef hes ihf =>
    obtain ⟨hk, hs⟩ := hef
    rw [List.pairwise_cons] at distinct
    refine ⟨fun hr => root e (by simp) (by rw [hk, hr]; rfl), fun hmem => ?_, ih e (by simp) _ hs,
      ihf distinct.2 (fun d hd => root d (by simp [hd])) (fun d hd => ih d (by simp [hd]))⟩
    -- a later field of the same name would come from an entry with the same key
    obtain ⟨g, hg, hgk⟩ := List.mem_map.mp hmem
    obtain ⟨d, hd, hdk, -⟩ := exists_of_forall₂ hes hg
    have := distinct.1 d hd
    rw [hk, hdk, hgk] at this
    simp at this

theorem properItems {vs : List Value} {is : List (Item Entries)}
    (h : List.Forall₂ (fun v i => Schema.compile v = .ok i.toSchema) vs is)
    (ih : ∀ v ∈ vs, ∀ s, Schema.compile v = .ok s → s.Proper) : ProperItems is := by
  induction h with
  | nil => trivial
  | @cons v i vs is hvi _ ihi =>
    have hi := ih v (by simp) _ hvi
    have his := ihi (fun w hw => ih w (by simp [hw]))
    match i with
    | .text _ => exact his
    | .mapping (.mk _ _ _) => exact ⟨hi, his⟩

/-- What a formed value compiles to is proper. -/
theorem proper {v : Value} (hv : v.Formed) : ∀ {s : Compiled}, Schema.compile v = .ok s → s.Proper := by
  induction hv with
  | null | bool | int | real | other => intro s hs; simp [Schema.compile] at hs
  | text e =>
    intro s hs
    obtain rfl : Schema.text e = s := by simpa [Schema.compile] using hs
    trivial
  | list _ ih =>
    intro s hs
    obtain ⟨is, his, rfl⟩ := Schema.compile_list.mp hs
    exact properItems (Schema.compileItems_eq_ok.mp his) fun v hv _ => ih v hv
  | tuple _ ih =>
    intro s hs
    obtain ⟨is, his, rfl⟩ := Schema.compile_tuple.mp hs
    exact properItems (Schema.compileItems_eq_ok.mp his) fun v hv _ => ih v hv
  | @map es distinct _ ih =>
    intro s hs
    obtain ⟨root, fs, -, hfs, rfl⟩ := Schema.compile_map.mp hs
    have hsub : (without Schema.rootKey es).Sublist es := List.filter_sublist
    exact properFields (Schema.compileFields_eq_ok.mp hfs) (distinct.sublist hsub) (fun e he => ne_of_mem_without he)
      fun e he _ => ih e (hsub.subset he)
  | schema proper =>
    intro s hs
    obtain rfl := by simpa [Schema.compile] using hs
    exact proper

end Value.Formed
end Harvest
