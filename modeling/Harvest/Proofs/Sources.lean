import Harvest.Proofs.PassThrough

/-
  What a mapping was made from, and what it holds.

  A mapping is kept twice: as fields, and as the entries that it was made from. Taking its root away changes both. The
  two never part: wherever a mapping occurs in what a value was compiled to, its entries compile to the mapping itself,
  and so do the entries without the root to the mapping without its root (`Genuine.recompiles`).
-/
namespace Harvest

/-- A mapping occurs in a schema: it is the schema, or occurs in a field or an item of it. -/
inductive Mapping.Occurs {σ : Type} (n : Mapping σ) : Schema σ → Prop where
  | here : n.Occurs (.mapping n)
  | field {m : Mapping σ} {f : String × Schema σ} (hf : f ∈ m.fields) (h : n.Occurs f.2) : n.Occurs (.mapping m)
  | item {is : List (Item σ)} {i : Item σ} (hi : i ∈ is) (h : n.Occurs i.toSchema) : n.Occurs (.list is)

/-- A mapping without its root has none to take away. -/
theorem Mapping.withoutRoot_withoutRoot (n : Mapping Entries) : n.withoutRoot.withoutRoot = n.withoutRoot := by
  cases n with
  | mk root fs source => rw [withoutRoot, withoutRoot, Value.without_without]

/-! ## Faithful schemas in faithful schemas -/

theorem FaithfulFields.of_mem {fs : List (String × Compiled)} (h : FaithfulFields fs) : ∀ f ∈ fs, f.2.Faithful := by
  induction fs with
  | nil => simp
  | cons f fs ih =>
    obtain ⟨hf, hfs⟩ := h
    exact List.forall_mem_cons.mpr ⟨hf, ih hfs⟩

theorem FaithfulItems.of_mem {is : List (Item Entries)} (h : FaithfulItems is) : ∀ i ∈ is, i.toSchema.Faithful := by
  induction is with
  | nil => simp
  | cons i is ih =>
    cases i with
    | text e => exact List.forall_mem_cons.mpr ⟨trivial, ih h⟩
    | mapping m =>
      obtain ⟨root, fs, source⟩ := m
      obtain ⟨hm, his⟩ := h
      exact List.forall_mem_cons.mpr ⟨hm, ih his⟩

/-- A mapping that occurs in a faithful schema is what its source writes down, by induction on the way to it. -/
theorem Schema.Faithful.compile_source {s : Compiled} {n : Mapping Entries} (hs : s.Faithful) (hn : n.Occurs s) :
    Schema.compile (.map n.source) = .ok (.mapping n) := by
  induction hn with
  | here =>
    obtain ⟨root, fs, source⟩ := n
    exact hs.1
  | @field m f hf _ ih =>
    obtain ⟨root, fs, source⟩ := m
    exact ih (FaithfulFields.of_mem hs.2 f hf)
  | @item is i hi _ ih => exact ih (FaithfulItems.of_mem hs i hi)

/-! ## Mappings and their sources -/

/-- Wherever a mapping occurs in what a value as callers write it compiles to, compiling its source gives the mapping
again, sources within it included, and the same holds of the mapping without its root. -/
theorem Value.Genuine.recompiles {v : Value} (hv : v.Genuine) {s : Compiled} (hs : Schema.compile v = .ok s)
    {n : Mapping Entries} (hn : n.Occurs s) :
    Schema.compile (.map n.source) = .ok (.mapping n) ∧
      Schema.compile (.map n.withoutRoot.source) = .ok (.mapping n.withoutRoot) ∧
      n.withoutRoot.withoutRoot = n.withoutRoot := by
  have hsource := (hv.faithful hs).compile_source hn
  refine ⟨hsource, ?_, n.withoutRoot_withoutRoot⟩
  obtain ⟨root, fs, source⟩ := n
  exact Schema.compile_without_root hsource

namespace Sample

/-- A mapping whose root is an empty text. -/
def unrooted : Mapping Entries :=
  .mk none [("title", .text "h2")] [(Schema.rootKey, .text ""), (.text "title", .text "h2")]

/-- A mapping with a root and, in a list, the compiled one. -/
def nesting : Value := .map [(Schema.rootKey, .text "main"), (.text "items", .list [.schema (.mapping unrooted)])]

/-- What it compiles to. -/
def nested : Compiled := .mapping (.mk (some "main") [("items", .list [.mapping unrooted])]
  [(Schema.rootKey, .text "main"), (.text "items", .list [.schema (.mapping unrooted)])])

theorem compile_unrooted : Schema.compile (.map unrooted.source) = .ok (.mapping unrooted) := by rfl

theorem nesting_genuine : nesting.Genuine := by
  have hunrooted : (Value.map unrooted.source).Genuine := .map (by simp [unrooted, Mapping.source, Value.Genuine.text])
  have hlist : (Value.list [.schema (.mapping unrooted)]).Genuine := by
    refine .list ?_
    simp [Value.Genuine.schema hunrooted compile_unrooted]
  exact .map (by simp [Value.Genuine.text, hlist])

end Sample

/-- A mapping in a list in a mapping, which was compiled before. -/
theorem Value.Genuine.recompiles_sample :
    Sample.nesting.Genuine ∧ Schema.compile Sample.nesting = .ok Sample.nested ∧ Sample.unrooted.Occurs Sample.nested ∧
      Schema.compile (.map Sample.unrooted.withoutRoot.source) = .ok (.mapping Sample.unrooted.withoutRoot) := by
  have hs : Schema.compile Sample.nesting = .ok Sample.nested := by rfl
  have hoccurs : Sample.unrooted.Occurs Sample.nested := by
    refine .field List.mem_cons_self ?_
    exact .item List.mem_cons_self .here
  exact ⟨Sample.nesting_genuine, hs, hoccurs, (Sample.nesting_genuine.recompiles hs hoccurs).2.1⟩

end Harvest
