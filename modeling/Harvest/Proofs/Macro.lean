import Harvest.Proofs.Shape

/-
  A hook that rewrites mappings is a macro.

  A macro has a key and a body: a mapping with the key is a use of the macro, and stands for what the body makes of it,
  a schema of any kind without further uses (`Macro`). The hook of a macro puts the body in place of every use that it is
  asked about. The same can be done to the schema beforehand: `Value.expand` writes the body in place of every use.
    1. `Schema.Singly` — uses stand only where one value is wanted. In a list of records the hook is not asked about a
       mapping without a root, and what it puts in the place of one with a root is taken once for each match.
    2. `compile_expand` — then the expanded schema compiles, to a twin of what the schema compiles to. The induction is
       on the value, one case for each way to write a schema.
    3. `value_use` — a use gives what the body gives without the hook, of whatever kind the body is.
    4. `resolve_expanded` — so the expanded schema gives without the hook what the schema gives with it.
-/
namespace Harvest
open Markup

/-! ## Macros -/

/-- Whether a mapping has a key. -/
def Value.Names (key : Value) (es : Entries) : Prop := (find? key es).isSome

instance (key : Value) (es : Entries) : Decidable (Value.Names key es) := inferInstanceAs (Decidable (_ = true))

/-- A macro. What its body makes of a use compiles, and no mapping in it is a use. -/
structure Macro where
  key : Value
  body : Entries → Value
  schema : Entries → Compiled
  compile_body : ∀ es, Value.Names key es → Schema.compile (body es) = .ok (schema es)
  no_use : ∀ es, Value.Names key es → ∀ source ∈ (schema es).sources, ¬Value.Names key source

/-- Whether a mapping is a use of a macro. -/
def Macro.Use (m : Macro) (es : Entries) : Prop := Value.Names m.key es

instance (m : Macro) (es : Entries) : Decidable (m.Use es) := inferInstanceAs (Decidable (Value.Names _ _))

/-- The hook that puts the body of a macro in place of its uses. -/
def Macro.hook (m : Macro) : MappingHook := fun _ es => .ok (if m.Use es then .replaced (m.body es) else .unchanged)

section
variable (m : Macro)

mutual

/-- A compiled schema with the body of a macro in place of its uses. An item of a list is none. -/
def Schema.expand : Compiled → Compiled
  | .text e => .text e
  | .mapping (.mk root fs source) =>
    if m.Use source then m.schema source else .mapping (.mk root (expandFields fs) source)
  | .list is => .list (expandItems is)

/-- The same of fields. -/
def expandFields : List (String × Compiled) → List (String × Compiled)
  | [] => []
  | (k, s) :: fs => (k, s.expand) :: expandFields fs

/-- The same within items. -/
def expandItems : List (Item Entries) → List (Item Entries)
  | [] => []
  | .text e :: is => .text e :: expandItems is
  | .mapping (.mk root fs source) :: is => .mapping (.mk root (expandFields fs) source) :: expandItems is

end

mutual

/-- A value with the body of a macro in place of each outermost use. -/
def Value.expand : Value → Value
  | .map es => if m.Use es then m.body es else .map (expandEntries es)
  | .list vs => .list (expandAll vs)
  | .tuple vs => .tuple (expandAll vs)
  | .schema s => .schema (s.expand m)
  | v => v

/-- The same of the values of entries. -/
def expandEntries : List (Value × Value) → List (Value × Value)
  | [] => []
  | (k, v) :: es => (k, v.expand) :: expandEntries es

/-- The same of values. -/
def expandAll : List Value → List Value
  | [] => []
  | v :: vs => v.expand :: expandAll vs

end

/-! ## Where uses stand -/

mutual

/-- Whether the outermost uses in a schema stand only where one value is wanted. -/
def Schema.Singly : Position → Compiled → Prop
  | _, .text _ => True
  | p, .mapping (.mk root fs source) => if m.Use source then p = .one else SinglyFields (p.below root) fs
  | _, .list is => SinglyItems is

/-- The same of fields. -/
def SinglyFields : Position → List (String × Compiled) → Prop
  | _, [] => True
  | p, (_, s) :: fs => s.Singly p ∧ SinglyFields p fs

/-- The same of items, where many values are wanted. -/
def SinglyItems : List (Item Entries) → Prop
  | [] => True
  | .text _ :: is => SinglyItems is
  | .mapping (.mk root fs source) :: is => ¬m.Use source ∧ SinglyFields (Position.many.below root) fs ∧ SinglyItems is

end
end

/-! ## Expanded schemas -/

/-- What expanding a schema changes: uses stand only where one value is wanted, and the body takes their places. -/
def Macro.changes (m : Macro) : Changes where
  kept := fun source => ¬m.Use source
  instead := fun s t => ∃ root fs source, s = .mapping (.mk root fs source) ∧ m.Use source ∧ t = m.schema source

section
variable {m : Macro}

/-- Where many values are wanted, the twin of an item is an item. -/
theorem Schema.Twin.item {c : Changes} {i : Item Entries} {t : Compiled} (h : i.toSchema.Twin c .many t) :
    ∃ j : Item Entries, t = j.toSchema := by
  match i, h with
  | .text _, .text _ => exact ⟨.text _, rfl⟩
  | .mapping _, .mapping _ _ _ => exact ⟨.mapping _, rfl⟩

mutual

/-- With uses in single positions only, a compiled schema and the expanded one are twins. -/
theorem Schema.Singly.twin : ∀ {s : Compiled} {p : Position}, s.Singly m p → s.Twin m.changes p (s.expand m)
  | .text _, _, _ => by
    rw [Schema.expand]
    exact .text rfl
  | .mapping (.mk root fs source), p, h => by
    by_cases huse : m.Use source
    · obtain rfl : p = .one := by simpa only [Schema.Singly, if_pos huse] using h
      rw [Schema.expand, if_pos huse]
      exact .instead ⟨root, fs, source, rfl, huse, rfl⟩
    · have hfs : SinglyFields m (p.below root) fs := by simpa only [Schema.Singly, if_neg huse] using h
      rw [Schema.expand, if_neg huse]
      exact .mapping huse (Option.rel_self root) (SinglyFields.twin hfs)
  | .list _, _, h => by
    rw [Schema.expand]
    exact .list (SinglyItems.twin h)

theorem SinglyFields.twin : ∀ {fs : List (String × Compiled)} {p : Position}, SinglyFields m p fs →
    FieldTwins m.changes p fs (expandFields m fs)
  | [], _, _ => .nil
  | (_, _) :: _, _, ⟨hs, hfs⟩ => .cons (Schema.Singly.twin hs) (SinglyFields.twin hfs)

theorem SinglyItems.twin : ∀ {is : List (Item Entries)}, SinglyItems m is → ItemTwins m.changes is (expandItems m is)
  | [], _ => .nil
  | .text _ :: _, h => .cons (.text rfl) (SinglyItems.twin h)
  | .mapping (.mk root _ _) :: _, ⟨huse, hfs, his⟩ =>
    .cons (.mapping huse (Option.rel_self root) (SinglyFields.twin hfs)) (SinglyItems.twin his)

end

theorem singly_mapping {p : Position} {root : Option String} {fs : List (String × Compiled)} {source : Entries}
    (huse : ¬m.Use source) : Schema.Singly m p (.mapping (.mk root fs source)) ↔ SinglyFields m (p.below root) fs := by
  rw [Schema.Singly, if_neg huse]

/-- An item is met where many values are wanted. -/
theorem singlyItems_cons {i : Item Entries} {is : List (Item Entries)} :
    SinglyItems m (i :: is) ↔ i.toSchema.Singly m .many ∧ SinglyItems m is := by
  match i with
  | .text _ => simp [SinglyItems, Item.toSchema, Schema.Singly]
  | .mapping (.mk _ _ source) =>
    by_cases huse : m.Use source
    · simp [SinglyItems, Item.toSchema, Schema.Singly, huse]
    · simp [SinglyItems, Item.toSchema, Schema.Singly, huse]

/-- A root is no use, so it stays. -/
theorem rootOf_expand {es : Entries} {root : Option String} (h : Schema.rootOf es = .ok root) :
    Schema.rootOf (expandEntries m es) = .ok root := by
  have hfind : Value.find? Schema.rootKey (expandEntries m es)
      = (Value.find? Schema.rootKey es).map (Value.expand m) := by
    -- expansion keeps the keys, so both lookups stop at the same entry
    clear h
    induction es with
    | nil => rfl
    | cons e es ih =>
      obtain ⟨l, v⟩ := e
      rw [expandEntries, Value.find?, Value.find?]
      by_cases hl : Value.sameKey l Schema.rootKey
      · rw [if_pos hl, if_pos hl, Option.map_some]
      · rw [if_neg hl, if_neg hl, ih]
  rw [Schema.rootOf] at h ⊢
  rw [hfind]
  cases hv : Value.find? Schema.rootKey es with
  | none =>
    rw [hv] at h
    exact h
  | some v =>
    rw [hv] at h
    -- a root is a text or null, and neither of them is expanded
    cases v with
    | null | text => simpa only [Option.map_some, Value.expand] using h
    | _ => cases h

mutual

/-- A schema that compiles does so after expansion, to a twin. -/
theorem Value.compile_expand : ∀ {v : Value} {s : Compiled} {p : Position}, Schema.compile v = .ok s → s.Singly m p →
    ∃ t, Schema.compile (v.expand m) = .ok t ∧ s.Twin m.changes p t
  | .schema s, _, _, hs, h => by
    obtain rfl : s = _ := by simpa [Schema.compile] using hs
    exact ⟨s.expand m, by simp [Value.expand, Schema.compile], h.twin⟩
  | .text e, _, _, hs, _ => by
    obtain rfl : Schema.text e = _ := by simpa [Schema.compile] using hs
    exact ⟨.text e, by simp [Value.expand, Schema.compile], .text rfl⟩
  | .map es, _, p, hs, h => by
    obtain ⟨root, fs, hroot, hfs, rfl⟩ := Schema.compile_map.mp hs
    rw [Value.expand]
    by_cases huse : m.Use es
    · obtain rfl : p = .one := by simpa only [Schema.Singly, if_pos huse] using h
      rw [if_pos huse]
      exact ⟨m.schema es, m.compile_body es huse, .instead ⟨root, fs, es, rfl, huse, rfl⟩⟩
    · obtain ⟨gs, hgs, htwins⟩ := compileFields_expand hfs ((singly_mapping huse).mp h)
      rw [if_neg huse]
      exact ⟨_, Schema.compile_map.mpr ⟨root, gs, rootOf_expand hroot, hgs, rfl⟩,
        .mapping huse (Option.rel_self root) htwins⟩
  | .list vs, _, _, hs, h => by
    obtain ⟨is, his, rfl⟩ := Schema.compile_list.mp hs
    obtain ⟨js, hjs, htwins⟩ := compileItems_expand his h
    rw [Value.expand]
    exact ⟨.list js, Schema.compile_list.mpr ⟨js, hjs, rfl⟩, .list htwins⟩
  | .tuple vs, _, _, hs, h => by
    obtain ⟨is, his, rfl⟩ := Schema.compile_tuple.mp hs
    obtain ⟨js, hjs, htwins⟩ := compileItems_expand his h
    rw [Value.expand]
    exact ⟨.list js, Schema.compile_tuple.mpr ⟨js, hjs, rfl⟩, .list htwins⟩
  | .null, _, _, hs, _ | .bool _, _, _, hs, _ | .int _, _, _, hs, _ | .real _, _, _, hs, _ | .other _, _, _, hs, _ => by
    simp [Schema.compile] at hs

theorem compileFields_expand : ∀ {es : Entries} {fs : List (String × Compiled)} {p : Position},
    Schema.compileFields es = .ok fs → SinglyFields m p fs →
    ∃ gs, Schema.compileFields (expandEntries m es) = .ok gs ∧ FieldTwins m.changes p fs gs
  | [], _, _, hfs, _ => by
    obtain rfl : [] = _ := by simpa [Schema.compileFields] using hfs
    exact ⟨[], rfl, .nil⟩
  | (.text k, v) :: es, _, _, hfs, h => by
    rw [expandEntries]
    by_cases hk : k = "$root"
    · -- the root makes no field, on either side
      subst hk
      rw [← Schema.rootKey, Schema.compileFields_root] at hfs ⊢
      exact compileFields_expand hfs h
    · rw [Schema.compileFields_cons hk] at hfs ⊢
      obtain ⟨s, hs, hrest⟩ := bind_eq_ok.mp hfs
      obtain ⟨fs, hes, heq⟩ := bind_eq_ok.mp hrest
      obtain rfl : (k, s) :: fs = _ := by simpa using heq
      obtain ⟨hsingly, hsinglyFields⟩ := h
      obtain ⟨t, ht, htwin⟩ := Value.compile_expand hs hsingly
      obtain ⟨gs, hgs, htwins⟩ := compileFields_expand hes hsinglyFields
      exact ⟨(k, t) :: gs, by rw [ht, ok_bind, hgs, ok_bind, pure_eq_ok], .cons htwin htwins⟩

theorem compileItems_expand : ∀ {vs : List Value} {is : List (Item Entries)}, Schema.compileItems vs = .ok is →
    SinglyItems m is → ∃ js, Schema.compileItems (expandAll m vs) = .ok js ∧ ItemTwins m.changes is js
  | [], _, his, _ => by
    obtain rfl : [] = _ := by simpa [Schema.compileItems] using his
    exact ⟨[], rfl, .nil⟩
  | v :: vs, _, his, h => by
    rw [Schema.compileItems] at his
    obtain ⟨s, hs, hrest⟩ := bind_eq_ok.mp his
    obtain ⟨i, hi, hrest⟩ := bind_eq_ok.mp hrest
    obtain ⟨is, hvs, heq⟩ := bind_eq_ok.mp hrest
    obtain rfl : i :: is = _ := by simpa using heq
    obtain rfl := Schema.asItem_eq_ok.mp hi
    obtain ⟨hsingly, hsinglyItems⟩ := singlyItems_cons.mp h
    obtain ⟨t, ht, htwin⟩ := Value.compile_expand hs hsingly
    -- no use stands here, so what the value became can still be an item
    obtain ⟨j, rfl⟩ := htwin.item
    obtain ⟨js, hjs, htwins⟩ := compileItems_expand hvs hsinglyItems
    refine ⟨j :: js, ?_, .cons htwin htwins⟩
    rw [expandAll, Schema.compileItems, ht, ok_bind, Schema.asItem_eq_ok.mpr rfl, ok_bind, hjs, ok_bind, pure_eq_ok]

end
end

/-! ## Without the hook -/

/-- What is looked up among some of the entries only is not found where it was not found. -/
theorem Value.Names.of_filter {key : Value} {es : Entries} (p : Value × Value → Bool)
    (h : Value.Names key (es.filter p)) : Value.Names key es := by
  induction es with
  | nil => exact h
  | cons e es ih =>
    obtain ⟨l, v⟩ := e
    rw [Value.Names, Value.find?]
    by_cases hl : Value.sameKey l key
    · rw [if_pos hl, Option.isSome_some]
    · rw [if_neg hl]
      rw [List.filter_cons] at h
      split at h
      · rw [Value.Names, Value.find?, if_neg hl] at h
        exact ih h
      · exact ih h

namespace Meaning
variable {m : Macro} {x : Engine}

/-- The hook of a macro leaves what is no use as it is, with its root and without. -/
theorem leaves_unused (hx : x.mappingHook = some m.hook) {source : Entries} (h : ¬m.Use source) : Leaves x source := by
  intro scope
  have hrootless : ¬m.Use (Value.without Schema.rootKey source) := mt (Value.Names.of_filter _) h
  simp only [hx, Option.map_some, Macro.hook, if_neg h, if_neg hrootless, decision, Option.getD_some, and_self]

variable [Css.Library]

/-- A value that a hook put in place of a mapping is worked through like any other, if the hook has nothing to say about
its mappings. -/
theorem expanding_leaves {v : Value} {s : Compiled} (hv : Schema.compile v = .ok s) (h : ∀ es ∈ s.sources, Leaves x es)
    (n : Nat) (scope : Scope) : expanding x (n + 1) v scope = value x (expanding x n) scope s := by
  match s with
  | .mapping (.mk root fs source) =>
    -- a mapping that was put in is not handed to the hook again, unlike one met in a schema
    have hsource : Leaves x source := h source (by simp [Schema.sources])
    rw [expanding_mapping hv, value, one_left (hsource scope).1]
  | .text _ | .list _ => simp only [expanding, compile, hv, ok_bind]

/-- With the hook of a macro a use gives what its body gives without the hook. -/
theorem value_use (hx : x.mappingHook = some m.hook) {root : Option String} {fs : List (String × Compiled)}
    {source : Entries} (huse : m.Use source) (n : Nat) (expand : Expansion) (scope : Scope) :
    value x (expanding x (n + 1)) scope (.mapping (.mk root fs source))
      = value x.unhooked expand scope (m.schema source) := by
  have hdecision : decision (x.mappingHook.map fun h => h scope source) = .ok (.replaced (m.body source)) := by
    simp only [hx, Option.map_some, Macro.hook, if_pos huse, decision, Option.getD_some]
  have hbody : ∀ es ∈ (m.schema source).sources, Leaves x es := fun es hes =>
    leaves_unused hx (m.no_use source huse es hes)
  calc value x (expanding x (n + 1)) scope (.mapping (.mk root fs source))
      = expanding x (n + 1) (m.body source) scope := by rw [value, one, hdecision, ok_bind]
    _ = value x (expanding x n) scope (m.schema source) := expanding_leaves (m.compile_body source huse) hbody n scope
    _ = value x.unhooked expand scope (m.schema source) := value_unhooked hbody (expanding x n) expand scope

theorem indifferent_expanded (hx : x.mappingHook = some m.hook) (n : Nat) (expand : Expansion) :
    Indifferent m.changes x (expanding x (n + 1)) x.unhooked expand where
  single := by rintro e _ rfl scope; rfl
  plural := by rintro e _ rfl scope; rfl
  first := by rintro r _ rfl scope; rfl
  all := by rintro r _ rfl scope; rfl
  kept := leaves_unused hx
  instead := by
    rintro _ _ ⟨root, fs, source, rfl, huse, rfl⟩ scope
    exact value_use hx huse n expand scope
  unhooked := rfl

/-- A schema whose uses stand in single positions gives with the hook of the macro what the expanded schema gives
without the hook. -/
theorem resolve_expanded (hx : x.mappingHook = some m.hook) {v : Value} {s : Compiled} (hs : Schema.compile v = .ok s)
    (h : s.Singly m .one) (scope : Scope) : resolve x v scope = resolve x.unhooked (v.expand m) scope := by
  obtain ⟨t, ht, htwin⟩ := Value.compile_expand hs h
  rw [resolve_ok hs, resolve_ok ht]
  exact value_twin (indifferent_expanded hx _ _) htwin scope

end Meaning

/-! ## Calls -/

/-- A hook that puts a macro's body in place of its uses is macro expansion: where uses stand only where one value is
wanted, every call comes to what it comes to without the hook for the expanded schema. -/
theorem Extractor.result_expanded [Css.Library] (page : Element) (o : Options) (m : Macro) (history : List Call) {v : Value}
    {s : Compiled} (hs : Schema.compile v = .ok s) (h : s.Singly m .one) (scope : Option Scope) :
    ((fresh page { o with mappingHook := some ⟨QueryHook.idle, m.hook⟩ }).after history).result v scope
      = ((fresh page { o with mappingHook := none }).after history).result (v.expand m) scope := by
  rw [result_after, result_after, Meaning.resolve_expanded rfl hs h]
  rfl

namespace Sample

/-- A mapping with the key `$title` stands for the title. -/
def shorthand : Macro where
  key := .text "$title"
  body := fun _ => .text "b"
  schema := fun _ => .text "b"
  compile_body := fun _ _ => by simp [Schema.compile]
  no_use := fun _ _ => by simp [Schema.sources]

/-- The schema of the sample, written with the shorthand. -/
def shortened : Value :=
  .map [(.text "title", .map [(.text "$title", .text "first")]), (.text "items", .list [.map titles])]

theorem expand_shortened : shortened.expand shorthand = schema := by
  simp [shortened, schema, titles, shorthand, Schema.rootKey, Macro.Use, Value.Names, Value.expand, expandEntries,
    expandAll, Value.find?]

theorem shortened_singly : ∃ s, Schema.compile shortened = .ok s ∧ s.Singly shorthand .one := by
  refine ⟨.mapping (.mk none
    [("title", .mapping (.mk none [("$title", .text "first")] [(.text "$title", .text "first")])),
      ("items", .list [.mapping (.mk (some "li") [("title", .text "b")] titles)])] _), rfl, ?_⟩
  simp [titles, shorthand, Schema.rootKey, Macro.Use, Value.Names, Schema.Singly, SinglyFields, SinglyItems,
    Position.below, Value.find?]

end Sample

/-- The titles of the sample page, with the first one asked for in shorthand. -/
theorem Extractor.result_expanded_sample :
    let hook : Hook := ⟨QueryHook.idle, Sample.shorthand.hook⟩
    (∃ s, Schema.compile Sample.shortened = .ok s ∧ s.Singly Sample.shorthand .one)
      ∧ ((fresh Sample.page { Sample.options with mappingHook := some hook }).after []).result Sample.shortened none
        = .ok Sample.value := by
  refine ⟨Sample.shortened_singly, ?_⟩
  obtain ⟨s, hs, hsingly⟩ := Sample.shortened_singly
  rw [result_expanded Sample.page Sample.options Sample.shorthand [] hs hsingly, Sample.expand_shortened]
  exact Sample.result_value

end Harvest
