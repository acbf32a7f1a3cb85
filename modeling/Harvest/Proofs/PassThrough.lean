import Harvest.Proofs.Entries
import Harvest.Proofs.Shape

/-
  Hooks that hand everything back are not seen.

  A hook may hand back what it is given, or put a copy of it in its place. In the second case a mapping is compiled
  again wherever it is met, from what it was made from, and for the records of a list from that without its root. So the
  fields of every mapping of a schema have to be those that its source writes down (`Schema.Faithful`).
    1. `Genuine.faithful` — this holds of all that is compiled from values as callers write them, also where these hold
       compiled schemas.
    2. `value_passedOn` and its companions — a faithful schema gives the same with such hooks as without hooks. The
       induction is on the schema, for all numbers of expansions that are no less than its depth: a mapping that is put
       in its own place takes one of them, and its fields are less deep.
-/
namespace Harvest
open Markup

/-! ## Schemas that are what their sources say -/

mutual

/-- Each mapping of a schema is what its source writes down. -/
def Schema.Faithful : Compiled → Prop
  | .text _ => True
  | .mapping (.mk root fs source) =>
    Schema.compile (.map source) = .ok (.mapping (.mk root fs source)) ∧ FaithfulFields fs
  | .list is => FaithfulItems is

/-- The same within fields. -/
def FaithfulFields : List (String × Compiled) → Prop
  | [] => True
  | (_, s) :: fs => s.Faithful ∧ FaithfulFields fs

/-- The same of items and within them. -/
def FaithfulItems : List (Item Entries) → Prop
  | [] => True
  | .text _ :: is => FaithfulItems is
  | .mapping (.mk root fs source) :: is =>
    (Schema.compile (.map source) = .ok (.mapping (.mk root fs source)) ∧ FaithfulFields fs) ∧ FaithfulItems is

end

/-- A value as callers write it: the compiled schemas in it were compiled from such values. -/
inductive Value.Genuine : Value → Prop where
  | null : Genuine .null
  | bool (b : Bool) : Genuine (.bool b)
  | int (i : Int) : Genuine (.int i)
  | real (x : Double) : Genuine (.real x)
  | text (s : String) : Genuine (.text s)
  | other (k : String) : Genuine (.other k)
  | list {vs : List Value} (members : ∀ v ∈ vs, Genuine v) : Genuine (.list vs)
  | tuple {vs : List Value} (members : ∀ v ∈ vs, Genuine v) : Genuine (.tuple vs)
  | map {es : Entries} (members : ∀ e ∈ es, Genuine e.2) : Genuine (.map es)
  | schema {v : Value} {s : Compiled} (hv : Genuine v) (hs : Schema.compile v = .ok s) : Genuine (.schema s)

namespace Value.Genuine

theorem faithfulFields {es : Entries} {fs : List (String × Compiled)}
    (h : List.Forall₂ (fun e f => e.1 = .text f.1 ∧ Schema.compile e.2 = .ok f.2) es fs)
    (ih : ∀ e ∈ es, ∀ s, Schema.compile e.2 = .ok s → s.Faithful) : FaithfulFields fs := by
  induction h with
  | nil => trivial
  | @cons e f es fs hef _ ihf => exact ⟨ih e (by simp) _ hef.2, ihf fun d hd => ih d (by simp [hd])⟩

theorem faithfulItems {vs : List Value} {is : List (Item Entries)}
    (h : List.Forall₂ (fun v i => Schema.compile v = .ok i.toSchema) vs is)
    (ih : ∀ v ∈ vs, ∀ s, Schema.compile v = .ok s → s.Faithful) : FaithfulItems is := by
  induction h with
  | nil => trivial
  | @cons v i vs is hvi _ ihi =>
    have hi := ih v (by simp) _ hvi
    have his := ihi fun w hw => ih w (by simp [hw])
    match i with
    | .text _ => exact his
    | .mapping (.mk _ _ _) => exact ⟨hi, his⟩

/-- What is compiled from a value as callers write it is faithful. -/
theorem faithful {v : Value} (hv : v.Genuine) : ∀ {s : Compiled}, Schema.compile v = .ok s → s.Faithful := by
  induction hv with
  | null | bool | int | real | other => intro s hs; simp [Schema.compile] at hs
  | text e =>
    intro s hs
    obtain rfl : Schema.text e = s := by simpa [Schema.compile] using hs
    trivial
  | list _ ih =>
    intro s hs
    obtain ⟨is, his, rfl⟩ := Schema.compile_list.mp hs
    exact faithfulItems (Schema.compileItems_eq_ok.mp his) fun v hv _ => ih v hv
  | tuple _ ih =>
    intro s hs
    obtain ⟨is, his, rfl⟩ := Schema.compile_tuple.mp hs
    exact faithfulItems (Schema.compileItems_eq_ok.mp his) fun v hv _ => ih v hv
  | @map es _ ih =>
    intro s hs
    obtain ⟨root, fs, -, hfs, rfl⟩ := Schema.compile_map.mp hs
    have hsub : (without Schema.rootKey es).Sublist es := List.filter_sublist
    exact ⟨hs, faithfulFields (Schema.compileFields_eq_ok.mp hfs) fun e he _ => ih e (hsub.subset he)⟩
  | schema _ hs ih =>
    -- a compiled schema is taken as it is, so it is what its own value was compiled to
    intro t ht
    obtain rfl := by simpa [Schema.compile] using ht
    exact ih hs

end Value.Genuine

/-- Without its root a mapping has the same fields. -/
theorem Schema.compile_without_root {root : Option String} {fs : List (String × Compiled)} {source : Entries}
    (h : compile (.map source) = .ok (.mapping (.mk root fs source))) :
    compile (.map (Value.without rootKey source)) = .ok (.mapping (.mk none fs (Value.without rootKey source))) := by
  obtain ⟨root', fs', -, hfs, he⟩ := compile_map.mp h
  obtain rfl : fs = fs' := by
    injection he with he
    injection he
  refine compile_map.mpr ⟨none, fs, ?_, ?_, rfl⟩
  · have hnone : Value.find? rootKey (Value.without rootKey source) = none :=
      Value.find?_eq_none.mpr fun e he => Value.ne_of_mem_without he
    rw [rootOf, hnone]
  · rw [compileFields_eq_ok, Value.without_without]
    exact compileFields_eq_ok.mp hfs

/-! ## Hooks that hand everything back -/

/-- A hook that hands every query back, or puts it in its own place. -/
def QueryHook.PassesOn (h : QueryHook) : Prop :=
  ∀ scope q, h scope q = .ok .unchanged ∨ h scope q = .ok (.replaced q)

/-- A hook that hands every mapping back, or puts a copy of it in its place. -/
def MappingHook.PassesOn (h : MappingHook) : Prop :=
  ∀ scope es, h scope es = .ok .unchanged ∨ h scope es = .ok (.replaced (.map es))

/-- An engine whose hooks hand everything back. -/
structure Engine.PassesOn (x : Engine) : Prop where
  query : ∀ h ∈ x.queryHook, QueryHook.PassesOn h
  mapping : ∀ h ∈ x.mappingHook, MappingHook.PassesOn h

/-- The engine without its hooks. -/
def Engine.bare (x : Engine) : Engine := { x with queryHook := none, mappingHook := none }

namespace Meaning
variable [Css.Library] {x : Engine} {expand : Expansion}

theorem single_passedOn (hx : x.PassesOn) (e : String) (scope : Scope) : single x e scope = single x.bare e scope := by
  have hquery : query x.bare e = query x e := rfl
  rw [single_eq (x := x.bare) rfl, hquery, single]
  refine bind_congr fun q => ?_
  cases hhook : x.queryHook with
  | none => rfl
  | some h =>
    rcases hx.query h hhook scope q with hq | hq
    · simp only [Option.map_some, hq]
      rfl
    · simp only [Option.map_some, hq]
      rfl

section
variable {root : Option String} {fs : List (String × Compiled)} {source : Entries}
variable {fill : Scope → Except Fault Value.Record} {n : Nat}

/-- A mapping for which the hook is asked stands for one record below its root, whichever way it is handed back. -/
theorem one_passedOn (hx : x.PassesOn) (h : Schema.compile (.map source) = .ok (.mapping (.mk root fs source)))
    (hfields : ∀ {n}, depthOfFields fs ≤ n → ∀ s, fields x (expanding x n) s fs = fill s) (hn : depthOfFields fs < n)
    (scope : Scope) :
    one x (expanding x n) source root (fun s => fields x (expanding x n) s fs) scope = filled root fill scope := by
  obtain ⟨m, rfl⟩ : ∃ m, n = m + 1 := Nat.exists_eq_add_one_of_ne_zero (Nat.ne_zero_of_lt hn)
  have hkept : ∀ s, fields x (expanding x (m + 1)) s fs = fill s := hfields (Nat.le_of_lt hn)
  -- put in its own place, the mapping has its fields worked through with one expansion less
  have hput : ∀ s, fields x (expanding x m) s fs = fill s := hfields (Nat.le_of_lt_succ hn)
  simp only [hkept]
  rw [one]
  cases hhook : x.mappingHook with
  | none => rfl
  | some g =>
    rcases hx.mapping g hhook scope source with hg | hg
    · simp only [Option.map_some, hg]
      rfl
    · have hexpand := expanding_mapping (x := x) h m scope
      simp only [hput] at hexpand
      simp only [Option.map_some, hg]
      exact hexpand

theorem records_passedOn (hx : x.PassesOn) (h : Schema.compile (.map source) = .ok (.mapping (.mk root fs source)))
    (hfields : ∀ {n}, depthOfFields fs ≤ n → ∀ s, fields x (expanding x n) s fs = fill s) (hn : depthOfFields fs < n)
    (expand : Expansion) (r : String) (scope : Scope) :
    records x (expanding x n) source r (fun s => fields x (expanding x n) s fs) scope
      = records x.bare expand source r fill scope := by
  rw [records, records_eq rfl]
  simp only [one_passedOn hx (Schema.compile_without_root h) hfields hn]

end

mutual

/-- A faithful schema gives the same as without hooks. -/
theorem value_passedOn (hx : x.PassesOn) : ∀ {s : Compiled}, s.Faithful → ∀ {n : Nat}, s.depth ≤ n → ∀ scope,
    value x (expanding x n) scope s = value x.bare expand scope s
  | .text e, _, _, _, scope => by rw [value, value, single_passedOn hx]
  | .mapping (.mk root fs source), ⟨hs, hfs⟩, n, hn, scope => by
    rw [value, value_mapping rfl]
    exact one_passedOn hx hs (fields_passedOn hx hfs) hn scope
  | .list is, his, n, hn, scope => by rw [value, value, items_passedOn hx his hn]

theorem fields_passedOn (hx : x.PassesOn) : ∀ {fs : List (String × Compiled)}, FaithfulFields fs → ∀ {n : Nat},
    depthOfFields fs ≤ n → ∀ scope, fields x (expanding x n) scope fs = fields x.bare expand scope fs
  | [], _, _, _, _ => by rw [fields, fields]
  | (_, _) :: _, ⟨hs, hfs⟩, n, hn, scope => by
    obtain ⟨hsn, hfsn⟩ := Nat.max_le.mp hn
    rw [fields, fields, value_passedOn hx hs hsn, fields_passedOn hx hfs hfsn]

theorem items_passedOn (hx : x.PassesOn) : ∀ {is : List (Item Entries)}, FaithfulItems is → ∀ {n : Nat},
    depthOfItems is ≤ n → ∀ scope, items x (expanding x n) scope is = items x.bare expand scope is
  | [], _, _, _, _ => by rw [items, items]
  | .text e :: is, his, n, hn, scope => by
    have hplural : plural x e scope = plural x.bare e scope := rfl
    have his : FaithfulItems is := his
    rw [items, items, hplural, items_passedOn hx his hn]
  | .mapping (.mk (some r) fs source) :: is, ⟨⟨hs, hfs⟩, his⟩, n, hn, scope => by
    obtain ⟨hsn, hisn⟩ := Nat.max_le.mp hn
    rw [items, items, records_passedOn hx hs (fields_passedOn hx hfs) hsn, items_passedOn hx his hisn]
  | .mapping (.mk none fs source) :: is, ⟨⟨_, hfs⟩, his⟩, n, hn, scope => by
    obtain ⟨hsn, hisn⟩ := Nat.max_le.mp hn
    -- the hook is not asked about a mapping whose fields make columns, so no expansion is taken
    rw [items, items, columns_passedOn hx hfs (Nat.le_of_succ_le hsn), items_passedOn hx his hisn]

theorem columns_passedOn (hx : x.PassesOn) : ∀ {fs : List (String × Compiled)}, FaithfulFields fs → ∀ {n : Nat},
    depthOfFields fs ≤ n → ∀ scope, columns x (expanding x n) scope fs = columns x.bare expand scope fs
  | [], _, _, _, _ => by rw [columns, columns]
  | (k, .text e) :: fs, ⟨_, hfs⟩, n, hn, scope => by
    have hplural : plural x e scope = plural x.bare e scope := rfl
    rw [columns, columns, hplural, columns_passedOn hx hfs (Nat.max_le.mp hn).2]
  | (k, .mapping (.mk (some r) gs source)) :: fs, ⟨⟨hs, hgs⟩, hfs⟩, n, hn, scope => by
    obtain ⟨hsn, hfsn⟩ := Nat.max_le.mp hn
    rw [columns, columns, records_passedOn hx hs (fields_passedOn hx hgs) hsn, columns_passedOn hx hfs hfsn]
  | (k, .mapping (.mk none gs source)) :: fs, ⟨⟨_, hgs⟩, hfs⟩, n, hn, scope => by
    obtain ⟨hsn, hfsn⟩ := Nat.max_le.mp hn
    rw [columns, columns, columns_passedOn hx hgs (Nat.le_of_succ_le hsn), columns_passedOn hx hfs hfsn]
  | (k, .list is) :: fs, ⟨_, hfs⟩, n, hn, scope => by
    rw [columns, columns, columns_passedOn hx hfs (Nat.max_le.mp hn).2]

end

/-- A value as callers write it gives the same with hooks that hand everything back as without hooks. -/
theorem resolve_passedOn (hx : x.PassesOn) {v : Value} (hv : v.Genuine) (scope : Scope) :
    resolve x v scope = resolve x.bare v scope := by
  cases hs : Schema.compile v with
  | error f => rw [resolve_error hs, resolve_error hs]
  | ok s => rw [resolve_ok hs, resolve_ok hs, value_passedOn hx (hv.faithful hs) (Nat.le_add_right _ _)]

end Meaning

/-! ## Calls -/

/-- The options without hooks. -/
def Options.bare (o : Options) : Options := { o with queryHook := none, mappingHook := none }

/-- Hooks that hand back what they are given, or put a copy of it in its place as they like, are not seen: every call
comes to the value or the fault that it comes to without hooks. -/
theorem Extractor.result_passThrough [Css.Library] (page : Element) (o : Options) (hq : ∀ h ∈ o.queryHook, h.onQuery.PassesOn)
    (hm : ∀ h ∈ o.mappingHook, h.onMapping.PassesOn) (history : List Call) {v : Value} (hv : v.Genuine)
    (scope : Option Scope) :
    ((fresh page o).after history).result v scope = ((fresh page o.bare).after history).result v scope := by
  have hx : o.engine.PassesOn := by
    constructor
    · intro g hg
      obtain ⟨h, hh, rfl⟩ := Option.map_eq_some_iff.mp hg
      exact hq h hh
    · intro g hg
      obtain ⟨h, hh, rfl⟩ := Option.map_eq_some_iff.mp hg
      exact hm h hh
  rw [result_after, result_after, Meaning.resolve_passedOn hx hv]
  rfl

namespace Sample

/-- Hooks that put a copy of all they are given in its place. -/
def copying : Hook := ⟨fun _ q => .ok (.replaced q), fun _ es => .ok (.replaced (.map es))⟩

/-- The options of the sample with these hooks. -/
def copyingOptions : Options := { options with queryHook := some copying, mappingHook := some copying }

theorem schema_genuine : schema.Genuine := by
  have htitles : (Value.map titles).Genuine := .map (by simp [titles, Value.Genuine.text])
  exact .map (by simp [Value.Genuine.text, Value.Genuine.list, htitles])

end Sample

/-- The titles of the sample page, with hooks that have every mapping compiled again. -/
theorem Extractor.result_passThrough_sample :
    (∀ h ∈ Sample.copyingOptions.queryHook, h.onQuery.PassesOn) ∧
      (∀ h ∈ Sample.copyingOptions.mappingHook, h.onMapping.PassesOn) ∧ Sample.schema.Genuine ∧
      ((fresh Sample.page Sample.copyingOptions).after []).result Sample.schema none = .ok Sample.value := by
  have hq : ∀ h ∈ Sample.copyingOptions.queryHook, h.onQuery.PassesOn := by
    rintro h ⟨⟩ scope q
    exact .inr rfl
  have hm : ∀ h ∈ Sample.copyingOptions.mappingHook, h.onMapping.PassesOn := by
    rintro h ⟨⟩ scope es
    exact .inr rfl
  refine ⟨hq, hm, Sample.schema_genuine, ?_⟩
  rw [result_passThrough Sample.page Sample.copyingOptions hq hm [] Sample.schema_genuine]
  exact Sample.result_value

end Harvest
