import Harvest.Fault
import Harvest.Proofs.Entries

/-
  Which values are schemas, and why the others are none.

  A value is a schema when it is a text, a compiled schema, a mapping of texts to schemas that may name a root, or a
  list or tuple of schemas that are no lists (`Value.IsSchema`). Any other value is refused for the first thing in it
  that is wrong, in reading order (`Value.Refused`).
    1. `isSchema_or_refused` — there is no third way. The recursion is on the value, its members and its entries.
    2. `IsSchema.compile`, `Refused.compile` — a schema compiles, and a value that is refused fails for the same reason;
       so both hold the other way round as well.
    3. `builtAs_of_compile` — what a value compiles to is built as the value is.
    4. `compile_outcome` — the three together.
    5. `refusal_untold` — not every refusal is told as a fault of the schema: a name that cannot be shown is not.
-/
namespace Harvest

namespace Value

/-- The members of a list or a tuple. -/
def members? : Value → Option (List Value)
  | .list vs => some vs
  | .tuple vs => some vs
  | _ => none

/-- Whether a value is a list, a tuple or a compiled list. -/
def isListing : Value → Bool
  | .list _ => true
  | .tuple _ => true
  | .schema (.list _) => true
  | _ => false

/-- Whether a value is of a kind in which no schema is written. -/
def isForeign : Value → Bool
  | .null | .bool _ | .int _ | .real _ | .other _ => true
  | .text _ | .list _ | .tuple _ | .map _ | .schema _ => false

/-- Whether the root that a mapping names, if any, is absent or a text. -/
def TextRoot (es : Entries) : Prop := ∀ v, find? Schema.rootKey es = some v → v = .null ∨ ∃ r, v = .text r

/-- A value that is a schema. -/
inductive IsSchema : Value → Prop where
  | schema (s : Compiled) : IsSchema (.schema s)
  | text (e : String) : IsSchema (.text e)
  | map {es : Entries} (root : TextRoot es) (names : ∀ e ∈ es, ∃ k, e.1 = .text k)
      (fields : ∀ e ∈ es, e.1 ≠ Schema.rootKey → IsSchema e.2) : IsSchema (.map es)
  | list {v : Value} {vs : List Value} (hv : v.members? = some vs) (flat : ∀ w ∈ vs, w.isListing = false)
      (members : ∀ w ∈ vs, IsSchema w) : IsSchema v

mutual

/-- A value that is no schema, with the first fault in it. -/
inductive Refused : Value → SchemaFault → Prop where
  | kind {v : Value} (hv : v.isForeign = true) : Refused v (.unsupported v.kind)
  | root {es : Entries} {v : Value} (hv : find? Schema.rootKey es = some v) (hnull : v ≠ .null)
      (htext : ∀ r, v ≠ .text r) : Refused (.map es) (.rootKind v.kind)
  | fields {es : Entries} {f : SchemaFault} (root : TextRoot es) (h : EntriesRefused es f) : Refused (.map es) f
  | members {v : Value} {vs : List Value} {f : SchemaFault} (hv : v.members? = some vs) (h : MembersRefused vs f) :
      Refused v f

/-- The same of the members of a list. -/
inductive MembersRefused : List Value → SchemaFault → Prop where
  | nested {v : Value} {vs : List Value} (hv : v.IsSchema) (hlist : v.isListing = true) :
      MembersRefused (v :: vs) .nestedList
  | here {v : Value} {vs : List Value} {f : SchemaFault} (hv : Refused v f) : MembersRefused (v :: vs) f
  | later {v : Value} {vs : List Value} {f : SchemaFault} (hv : v.IsSchema) (hlist : v.isListing = false)
      (h : MembersRefused vs f) : MembersRefused (v :: vs) f

/-- The same of the entries of a mapping. -/
inductive EntriesRefused : Entries → SchemaFault → Prop where
  | name {k v : Value} {es : Entries} (hk : ∀ t, k ≠ .text t) : EntriesRefused ((k, v) :: es) (.ofName k)
  | here {k : String} {v : Value} {es : Entries} {f : SchemaFault} (hk : k ≠ "$root") (hv : Refused v f) :
      EntriesRefused ((.text k, v) :: es) f
  | root {v : Value} {es : Entries} {f : SchemaFault} (h : EntriesRefused es f) :
      EntriesRefused ((Schema.rootKey, v) :: es) f
  | later {k : String} {v : Value} {es : Entries} {f : SchemaFault} (hk : k ≠ "$root") (hv : v.IsSchema)
      (h : EntriesRefused es f) : EntriesRefused ((.text k, v) :: es) f

end

end Value

/-! ## The parts of what is compiled -/

/-- The root that the entries of a mapping name; an empty text names none. -/
def Schema.rootName (es : Entries) : Option String :=
  match Value.find? rootKey es with
  | some (.text r) => if r = "" then none else some r
  | _ => none

namespace Schema
open Value
variable {es : Entries} {v : Value} {vs : List Value}

/-- A root that is absent or a text is taken, and any other is a fault. -/
theorem rootOf_eq_ok {root : Option String} : rootOf es = .ok root ↔ TextRoot es ∧ root = rootName es := by
  unfold rootOf rootName TextRoot
  cases hroot : find? rootKey es with
  | none => simp [eq_comm]
  | some w =>
    cases w with
    | null => simp [eq_comm]
    | text r => simp [eq_comm (b := root)]
    | _ => simp

theorem rootOf_eq_error (hv : find? rootKey es = some v) (hnull : v ≠ .null) (htext : ∀ r, v ≠ .text r) :
    rootOf es = .error (.rootKind v.kind) := by
  rw [rootOf, hv]
  cases v with
  | null => exact absurd rfl hnull
  | text r => exact absurd rfl (htext r)
  | _ => rfl

/-- A list and a tuple are compiled alike. -/
theorem compile_members (hv : v.members? = some vs) :
    compile v = (compileItems vs >>= fun is => .ok (.list is)) := by
  cases v with
  | list _ =>
    cases hv
    rw [compile]
    rfl
  | tuple _ =>
    cases hv
    rw [compile]
    rfl
  | _ => cases hv

/-- What a value compiles to is a list exactly when the value is one. -/
theorem isListing_iff {s : Compiled} (hs : compile v = .ok s) : v.isListing = true ↔ s.toItem? = none := by
  cases v with
  | schema t =>
    obtain rfl : t = s := by simpa [compile] using hs
    cases t <;> simp [isListing, toItem?]
  | text e =>
    obtain rfl : Schema.text e = s := by simpa [compile] using hs
    simp [isListing, toItem?]
  | map es =>
    obtain ⟨root, fs, -, -, rfl⟩ := compile_map.mp hs
    simp [isListing, toItem?]
  | list vs =>
    obtain ⟨is, -, rfl⟩ := compile_list.mp hs
    simp [isListing, toItem?]
  | tuple vs =>
    obtain ⟨is, -, rfl⟩ := compile_tuple.mp hs
    simp [isListing, toItem?]
  | _ => simp [compile] at hs

theorem asItem_of_isListing {s : Compiled} (hs : compile v = .ok s) (hv : v.isListing = true) :
    asItem s = .error .nestedList := by
  rw [asItem, (isListing_iff hs).mp hv]

theorem exists_item {s : Compiled} (hs : compile v = .ok s) (hv : v.isListing = false) : ∃ i, asItem s = .ok i := by
  cases hi : s.toItem? with
  | none =>
    rw [(isListing_iff hs).mpr hi] at hv
    cases hv
  | some i => exact ⟨i, by rw [asItem, hi]⟩

end Schema

/-! ## Schemas compile -/

namespace Value

theorem exists_compileItems {vs : List Value} (flat : ∀ w ∈ vs, w.isListing = false)
    (h : ∀ w ∈ vs, ∃ s, Schema.compile w = .ok s) : ∃ is, Schema.compileItems vs = .ok is := by
  induction vs with
  | nil => exact ⟨[], by rw [Schema.compileItems]⟩
  | cons v vs ih =>
    obtain ⟨hlist, flat⟩ := List.forall_mem_cons.mp flat
    obtain ⟨⟨s, hs⟩, h⟩ := List.forall_mem_cons.mp h
    obtain ⟨i, hi⟩ := Schema.exists_item hs hlist
    obtain ⟨is, his⟩ := ih flat h
    exact ⟨i :: is, by simp [Schema.compileItems, hs, hi, his]⟩

theorem exists_compileFields {es : Entries} (names : ∀ e ∈ es, ∃ k, e.1 = .text k)
    (h : ∀ e ∈ es, e.1 ≠ Schema.rootKey → ∃ s, Schema.compile e.2 = .ok s) :
    ∃ fs, Schema.compileFields es = .ok fs := by
  induction es with
  | nil => exact ⟨[], by rw [Schema.compileFields]⟩
  | cons e es ih =>
    obtain ⟨l, v⟩ := e
    obtain ⟨⟨k, hl⟩, hnames⟩ := List.forall_mem_cons.mp names
    obtain rfl : l = .text k := hl
    obtain ⟨hv, hrest⟩ := List.forall_mem_cons.mp h
    obtain ⟨fs, hfs⟩ := ih hnames hrest
    by_cases hk : k = "$root"
    · subst hk
      exact ⟨fs, (Schema.compileFields_root v es).trans hfs⟩
    · obtain ⟨s, hs⟩ := hv (by simpa [Schema.rootKey] using hk)
      exact ⟨(k, s) :: fs, by rw [Schema.compileFields_cons hk, hs, hfs]; rfl⟩

/-- A schema compiles. -/
theorem IsSchema.compile {v : Value} (h : v.IsSchema) : ∃ s, Schema.compile v = .ok s := by
  induction h with
  | schema s => exact ⟨s, by rw [Schema.compile]⟩
  | text e => exact ⟨.text e, by rw [Schema.compile]⟩
  | map root names _ ih =>
    obtain ⟨fs, hfs⟩ := exists_compileFields names ih
    exact ⟨_, Schema.compile_map.mpr ⟨_, fs, Schema.rootOf_eq_ok.mpr ⟨root, rfl⟩, hfs, rfl⟩⟩
  | list hv flat _ ih =>
    obtain ⟨is, his⟩ := exists_compileItems flat ih
    exact ⟨.list is, by rw [Schema.compile_members hv, his, ok_bind]⟩

/-! ## What is refused fails -/

mutual

/-- A value that is refused fails to compile, for the same reason. -/
theorem Refused.compile : ∀ {v : Value} {f : SchemaFault}, v.Refused f → Schema.compile v = .error f
  | v, _, .kind hv => by
    cases v with
    | null | bool _ | int _ | real _ | other _ => simp [Schema.compile, kind]
    | _ => cases hv
  | .map _, _, .root hv hnull htext => by
    rw [Schema.compile, Schema.rootOf_eq_error hv hnull htext, error_bind]
  | .map _, _, .fields root h => by
    rw [Schema.compile, Schema.rootOf_eq_ok.mpr ⟨root, rfl⟩, ok_bind, h.compile, error_bind]
  | _, _, .members hv h => by rw [Schema.compile_members hv, h.compile, error_bind]

theorem MembersRefused.compile : ∀ {vs : List Value} {f : SchemaFault}, MembersRefused vs f →
    Schema.compileItems vs = .error f
  | _ :: _, _, .nested hv hlist => by
    obtain ⟨s, hs⟩ := hv.compile
    rw [Schema.compileItems, hs, ok_bind, Schema.asItem_of_isListing hs hlist, error_bind]
  | _ :: _, _, .here hv => by rw [Schema.compileItems, hv.compile, error_bind]
  | _ :: _, _, .later hv hlist h => by
    obtain ⟨s, hs⟩ := hv.compile
    obtain ⟨i, hi⟩ := Schema.exists_item hs hlist
    rw [Schema.compileItems, hs, ok_bind, hi, ok_bind, h.compile, error_bind]

theorem EntriesRefused.compile : ∀ {es : Entries} {f : SchemaFault}, EntriesRefused es f →
    Schema.compileFields es = .error f
  | (_, v) :: es, _, .name hk => Schema.compileFields_other hk v es
  | _ :: _, _, .here hk hv => by rw [Schema.compileFields_cons hk, hv.compile, error_bind]
  | _ :: _, _, .root h => by rw [Schema.compileFields_root, h.compile]
  | _ :: _, _, .later hk hv h => by
    obtain ⟨s, hs⟩ := hv.compile
    rw [Schema.compileFields_cons hk, hs, ok_bind, h.compile, error_bind]

end

/-! ## Nothing else -/

/-- Whether the entries of a mapping are fields, but for its root. -/
def AreFields (es : Entries) : Prop :=
  ∀ e ∈ es, (∃ k, e.1 = .text k) ∧ (e.1 ≠ Schema.rootKey → e.2.IsSchema)

/-- Whether values are items. -/
def AreItems (vs : List Value) : Prop := ∀ v ∈ vs, v.IsSchema ∧ v.isListing = false

theorem exists_of_not_textRoot {es : Entries} (h : ¬TextRoot es) :
    ∃ v, find? Schema.rootKey es = some v ∧ v ≠ .null ∧ ∀ r, v ≠ .text r := by
  simp only [TextRoot, not_forall, not_or, not_exists] at h
  obtain ⟨v, hv, hnull, htext⟩ := h
  exact ⟨v, hv, hnull, htext⟩

mutual

/-- A value is a schema, or there is a first fault in it. -/
theorem isSchema_or_refused : ∀ v : Value, v.IsSchema ∨ ∃ f, v.Refused f
  | .schema s => .inl (.schema s)
  | .text e => .inl (.text e)
  | .map es => by
    by_cases root : TextRoot es
    · rcases areFields_or_refused es with h | ⟨f, hf⟩
      · exact .inl (.map root (fun e he => (h e he).1) fun e he => (h e he).2)
      · exact .inr ⟨f, .fields root hf⟩
    · obtain ⟨v, hv, hnull, htext⟩ := exists_of_not_textRoot root
      exact .inr ⟨_, .root hv hnull htext⟩
  | .list vs => by
    rcases areItems_or_refused vs with h | ⟨f, hf⟩
    · exact .inl (.list rfl (fun w hw => (h w hw).2) fun w hw => (h w hw).1)
    · exact .inr ⟨f, .members rfl hf⟩
  | .tuple vs => by
    rcases areItems_or_refused vs with h | ⟨f, hf⟩
    · exact .inl (.list rfl (fun w hw => (h w hw).2) fun w hw => (h w hw).1)
    · exact .inr ⟨f, .members rfl hf⟩
  | .null => .inr ⟨_, .kind rfl⟩
  | .bool _ => .inr ⟨_, .kind rfl⟩
  | .int _ => .inr ⟨_, .kind rfl⟩
  | .real _ => .inr ⟨_, .kind rfl⟩
  | .other _ => .inr ⟨_, .kind rfl⟩

theorem areItems_or_refused : ∀ vs : List Value, AreItems vs ∨ ∃ f, MembersRefused vs f
  | [] => .inl (by simp [AreItems])
  | v :: vs => by
    rcases isSchema_or_refused v with hv | ⟨f, hf⟩
    · cases hlist : v.isListing with
      | true => exact .inr ⟨_, .nested hv hlist⟩
      | false =>
        rcases areItems_or_refused vs with h | ⟨f, hf⟩
        · exact .inl (List.forall_mem_cons.mpr ⟨⟨hv, hlist⟩, h⟩)
        · exact .inr ⟨f, .later hv hlist hf⟩
    · exact .inr ⟨f, .here hf⟩

theorem areFields_or_refused : ∀ es : Entries, AreFields es ∨ ∃ f, EntriesRefused es f
  | [] => .inl (by simp [AreFields])
  | (l, v) :: es => by
    by_cases hl : ∃ k, l = .text k
    · obtain ⟨k, rfl⟩ := hl
      rcases areFields_or_refused es with h | ⟨f, hf⟩
      · by_cases hk : k = "$root"
        · subst hk
          exact .inl (List.forall_mem_cons.mpr ⟨⟨⟨_, rfl⟩, fun hne => absurd rfl hne⟩, h⟩)
        · rcases isSchema_or_refused v with hv | ⟨g, hg⟩
          · exact .inl (List.forall_mem_cons.mpr ⟨⟨⟨_, rfl⟩, fun _ => hv⟩, h⟩)
          · exact .inr ⟨g, .here hk hg⟩
      · by_cases hk : k = "$root"
        · subst hk
          exact .inr ⟨f, .root hf⟩
        · rcases isSchema_or_refused v with hv | ⟨g, hg⟩
          · exact .inr ⟨f, .later hk hv hf⟩
          · exact .inr ⟨g, .here hk hg⟩
    · exact .inr ⟨_, .name (not_exists.mp hl)⟩

end

/-! ## What is compiled -/

/-- Whether a schema is the list of what values compile to: the list schema of one item, or several ones in a row. -/
def BuiltAsMembers (s : Compiled) (vs : List Value) : Prop :=
  ∃ is, s = .list is ∧ List.Forall₂ (fun v i => Schema.compile v = .ok i.toSchema) vs is ∧
    schemaKind s = if vs.length = 1 then "ArrayOf" else "ArrayConcat"

/-- Whether a schema is built as a value is, from what the parts of the value compile to. -/
def BuiltAs (s : Compiled) : Value → Prop
  | .schema t => s = t
  | .text e => s = .text e
  | .map es => ∃ fs, s = .mapping (.mk (Schema.rootName es) fs es) ∧
      List.Forall₂ (fun e f => e.1 = .text f.1 ∧ Schema.compile e.2 = .ok f.2) (without Schema.rootKey es) fs
  | .list vs => BuiltAsMembers s vs
  | .tuple vs => BuiltAsMembers s vs
  | _ => False

theorem schemaKind_list {σ : Type} (is : List (Item σ)) :
    schemaKind (.list is) = if is.length = 1 then "ArrayOf" else "ArrayConcat" := by
  match is with
  | [] => rfl
  | [_] => rfl
  | _ :: _ :: _ => simp [schemaKind]

theorem builtAsMembers_of_compile {vs : List Value} {is : List (Item Entries)} (h : Schema.compileItems vs = .ok is) :
    BuiltAsMembers (.list is) vs := by
  have hall := Schema.compileItems_eq_ok.mp h
  exact ⟨is, rfl, hall, by rw [schemaKind_list, hall.length_eq]⟩

/-- What a value compiles to is built as the value is. -/
theorem builtAs_of_compile {v : Value} {s : Compiled} (h : Schema.compile v = .ok s) : BuiltAs s v := by
  cases v with
  | schema t => simpa [Schema.compile, BuiltAs, eq_comm] using h
  | text e => simpa [Schema.compile, BuiltAs, eq_comm] using h
  | map es =>
    obtain ⟨root, fs, hroot, hfs, rfl⟩ := Schema.compile_map.mp h
    obtain ⟨-, rfl⟩ := Schema.rootOf_eq_ok.mp hroot
    exact ⟨fs, rfl, Schema.compileFields_eq_ok.mp hfs⟩
  | list vs =>
    obtain ⟨is, his, rfl⟩ := Schema.compile_list.mp h
    exact builtAsMembers_of_compile his
  | tuple vs =>
    obtain ⟨is, his, rfl⟩ := Schema.compile_tuple.mp h
    exact builtAsMembers_of_compile his
  | _ => simp [Schema.compile] at h

end Value

namespace Schema

/-- A value compiles exactly when it is a schema, and then to what is built as the value is. Otherwise it fails with the
first fault in it, which is told as one of the schema unless it is a name that cannot be shown. -/
theorem compile_outcome (v : Value) :
    ((∃ s, compile v = .ok s) ↔ v.IsSchema) ∧ (∀ s, compile v = .ok s → Value.BuiltAs s v) ∧
      (∀ f, compile v = .error f ↔ v.Refused f) ∧
      ∀ f, v.Refused f → (Fault.kind (.schema f) = "SchemaError" ↔ f ≠ .hiddenName) := by
  refine ⟨⟨?_, Value.IsSchema.compile⟩, fun _ => Value.builtAs_of_compile, fun f => ⟨?_, Value.Refused.compile⟩, ?_⟩
  · rintro ⟨s, hs⟩
    rcases v.isSchema_or_refused with h | ⟨f, hf⟩
    · exact h
    · rw [hf.compile] at hs
      cases hs
  · intro hf
    rcases v.isSchema_or_refused with h | ⟨g, hg⟩
    · obtain ⟨s, hs⟩ := h.compile
      rw [hs] at hf
      cases hf
    · rw [hg.compile, Except.error.injEq] at hf
      rwa [hf] at hg
  · intro f _
    cases f <;> simp [Fault.kind, SchemaFault.kind]

end Schema

namespace Sample

/-- A field that is a schema, and one that is a list in a list. -/
def listInList : Entries := [(.text "title", .text "h2"), (.text "items", .list [.list []])]

theorem listInList_refused : (Value.map listInList).Refused .nestedList := by
  have hroot : Value.TextRoot listInList := by
    intro v hv
    have hmem := Value.mem_of_find? hv
    simp [listInList] at hmem
  have hitems : (Value.list [.list []]).Refused .nestedList :=
    .members rfl (.nested (.list rfl (by simp) (by simp)) rfl)
  exact .fields hroot (.later (by decide) (.text "h2") (.here (by decide) hitems))

end Sample

/-- A list in a list is refused as one, also behind a field that is a schema. -/
theorem Schema.compile_outcome_sample :
    (Value.map Sample.listInList).Refused .nestedList ∧ compile (.map Sample.listInList) = .error .nestedList ∧
      Fault.kind (.schema .nestedList) = "SchemaError" := by
  obtain ⟨-, -, hfault, hkind⟩ := compile_outcome (.map Sample.listInList)
  have hrefused := Sample.listInList_refused
  exact ⟨hrefused, (hfault _).mpr hrefused, (hkind _ hrefused).mpr (by decide)⟩

/-! ## Names that cannot be shown -/

/-- A name that is no text and cannot be shown is a fault of its own kind. -/
theorem SchemaFault.ofName_eq_hiddenName {k : Value} : ofName k = .hiddenName ↔ k.isShowable = false := by
  unfold ofName
  split
  · next hk => simp [hk]
  · next hk => simpa using hk

namespace Sample

/-- The least number with too many digits to be shown. -/
def longNumber : Value := .int (Nat.pow 10 Numeral.maxDigits)

theorem longNumber_hidden : SchemaFault.ofName longNumber = .hiddenName := by
  rw [SchemaFault.ofName_eq_hiddenName, longNumber, Value.isShowable, Int.natAbs_natCast]
  exact decide_eq_false (Nat.lt_irrefl _)

/-- A mapping whose one field has this number for a name. -/
theorem longNumber_refused : (Value.map [(longNumber, .text "p")]).Refused .hiddenName := by
  have hroot : Value.TextRoot [(longNumber, .text "p")] := by
    intro v hv
    have hkey := congrArg Prod.fst (List.mem_singleton.mp (Value.mem_of_find? hv))
    cases hkey
  have hname : Value.EntriesRefused [(longNumber, .text "p")] (.ofName longNumber) :=
    .name fun t h => by cases h
  rw [longNumber_hidden] at hname
  exact .fields hroot hname

end Sample

/-- Not every value that is no schema is told to be none: the attempt to show a name can fail. -/
theorem Schema.refusal_untold :
    ¬∀ v : Value, ¬v.IsSchema → ∃ f, compile v = .error f ∧ Fault.kind (.schema f) = "SchemaError" := by
  intro h
  have hfault := Sample.longNumber_refused.compile
  have hnone : ¬(Value.map [(Sample.longNumber, .text "p")]).IsSchema := by
    intro hschema
    obtain ⟨s, hs⟩ := hschema.compile
    rw [hs] at hfault
    cases hfault
  obtain ⟨f, hf, hkind⟩ := h _ hnone
  rw [hfault, Except.error.injEq] at hf
  subst hf
  simp [Fault.kind, SchemaFault.kind] at hkind

end Harvest
