import Harvest.Proofs.Entries
import Harvest.Schema.Load
import Harvest.Yaml.Meaning

/-
  Values that are read from files and texts are formed.

  The readers build a mapping entry by entry, each entry put under its key, so the keys of a mapping are different. Of a
  library for YAML this is asked (`Yaml.Library.Forming`), and that of the program does so (`Yaml.forming`). The proofs
  follow the readers: over the node of a YAML document (`Node.value_formed`), and over the bound on the calls of the
  readers of JSON (`Json.readers_formed`).
    1. `Schema.load_formed` — whatever a schema is loaded from, it is a formed value.
-/
namespace Harvest

/-! ## YAML -/

namespace Yaml
open Value

/-- The values of a library are formed: a mapping has each key once. -/
def Library.Forming [Library] : Prop := ∀ s v, Library.read s = .ok v → v.Formed

theorem scalarValue_formed {text : String} {t : Tag} {v : Value} (h : scalarValue text t = .ok v) : v.Formed := by
  cases t with
  | null =>
    cases h
    exact .null
  | str =>
    cases h
    exact .text text
  | int =>
    rw [scalarValue] at h
    obtain ⟨i, -, rfl⟩ := map_eq_ok.mp h
    exact .int i
  | float =>
    rw [scalarValue] at h
    obtain ⟨x, -, rfl⟩ := map_eq_ok.mp h
    exact .real x
  | bool =>
    rw [scalarValue] at h
    obtain ⟨b, -, rfl⟩ := map_eq_ok.mp h
    exact .bool b
  | timestamp =>
    rw [scalarValue] at h
    obtain ⟨k, -, rfl⟩ := map_eq_ok.mp h
    exact .other k
  | binary =>
    rw [scalarValue] at h
    obtain ⟨k, -, rfl⟩ := map_eq_ok.mp h
    exact .other k
  | _ => cases h

namespace Node

mutual

theorem value_formed : ∀ (n : Node) {v : Value}, n.value = .ok v → v.Formed
  | .scalar t s, v, h => by
    rw [value] at h
    exact scalarValue_formed h
  | .sequence t items, v, h => by
    unfold value at h
    split at h
    · obtain ⟨vs, hvs, rfl⟩ := map_eq_ok.mp h
      exact .list (values_formed items hvs)
    · obtain ⟨vs, hvs, rfl⟩ := map_eq_ok.mp h
      exact .list (pairs_formed items hvs)
    · obtain ⟨vs, hvs, rfl⟩ := map_eq_ok.mp h
      exact .list (pairs_formed items hvs)
    · cases h
  | .mapping t es, v, h => by
    unfold value at h
    split at h
    · obtain ⟨⟨merged, own⟩, hes, rfl⟩ := map_eq_ok.mp h
      exact Formed.putAll (entries_formed es hes)
    · obtain ⟨-, -, rfl⟩ := map_eq_ok.mp h
      exact .other "set"
    · obtain ⟨s, -, hs⟩ := bind_eq_ok.mp h
      exact scalarValue_formed hs
  | .inside a isMapping, v, h => by
    rw [value] at h
    cases h
    exact .other _

theorem values_formed : ∀ (ns : List Node) {vs : List Value}, values ns = .ok vs → ∀ v ∈ vs, v.Formed
  | [], vs, h => by
    cases h
    simp
  | n :: ns, vs, h => by
    rw [values] at h
    obtain ⟨w, hw, h⟩ := bind_eq_ok.mp h
    obtain ⟨ws, hws, h⟩ := bind_eq_ok.mp h
    cases h
    exact List.forall_mem_cons.mpr ⟨value_formed n hw, values_formed ns hws⟩

theorem pairs_formed : ∀ (ns : List Node) {vs : List Value}, pairs ns = .ok vs → ∀ v ∈ vs, v.Formed
  | [], vs, h => by
    cases h
    simp
  | .mapping t [(k, x)] :: ns, vs, h => by
    rw [pairs] at h
    obtain ⟨key, hkey, h⟩ := bind_eq_ok.mp h
    obtain ⟨w, hw, h⟩ := bind_eq_ok.mp h
    obtain ⟨ws, hws, h⟩ := bind_eq_ok.mp h
    cases h
    have hpair : ∀ u ∈ [key, w], u.Formed :=
      List.forall_mem_cons.mpr ⟨value_formed k hkey, List.forall_mem_singleton.mpr (value_formed x hw)⟩
    exact List.forall_mem_cons.mpr ⟨.tuple hpair, pairs_formed ns hws⟩
  | .mapping t [] :: ns, vs, h => by cases h
  | .mapping t (_ :: _ :: _) :: ns, vs, h => by cases h
  | .scalar t s :: ns, vs, h => by cases h
  | .sequence t is :: ns, vs, h => by cases h
  | .inside a isMapping :: ns, vs, h => by cases h

theorem entries_formed : ∀ (es : List (Node × Node)) {merged own : Entries}, entries es = .ok (merged, own) →
    ∀ e ∈ merged ++ own, e.2.Formed
  | [], merged, own, h => by
    cases h
    simp
  | (k, x) :: es, merged, own, h => by
    rw [entries] at h
    split at h
    · obtain ⟨first, hfirst, h⟩ := bind_eq_ok.mp h
      obtain ⟨⟨more, rest⟩, hes, h⟩ := bind_eq_ok.mp h
      cases h
      rw [List.append_assoc]
      exact List.forall_mem_append.mpr ⟨merged_formed x hfirst, entries_formed es hes⟩
    · obtain ⟨key, -, h⟩ := bind_eq_ok.mp h
      dsimp only at h
      split at h
      · obtain ⟨u, hu, -⟩ := bind_eq_ok.mp h
        cases hu
      · obtain ⟨w, hw, h⟩ := bind_eq_ok.mp h
        obtain ⟨⟨more, rest⟩, hes, h⟩ := bind_eq_ok.mp h
        cases h
        have hrest := List.forall_mem_append.mp (entries_formed es hes)
        exact List.forall_mem_append.mpr ⟨hrest.1, List.forall_mem_cons.mpr ⟨value_formed x hw, hrest.2⟩⟩

theorem merged_formed : ∀ (n : Node) {es : Entries}, merged n = .ok es → ∀ e ∈ es, e.2.Formed
  | .mapping t es, out, h => by
    rw [merged] at h
    obtain ⟨⟨more, own⟩, hes, rfl⟩ := map_eq_ok.mp h
    exact entries_formed es hes
  | .sequence t ns, out, h => by
    rw [merged] at h
    exact mergedAll_formed ns h
  | .scalar t s, out, h => by cases h
  | .inside a isMapping, out, h => by cases h

theorem mergedAll_formed : ∀ (ns : List Node) {es : Entries}, mergedAll ns = .ok es → ∀ e ∈ es, e.2.Formed
  | [], out, h => by
    cases h
    simp
  | .mapping t es :: ns, out, h => by
    rw [mergedAll] at h
    obtain ⟨⟨more, own⟩, hes, h⟩ := bind_eq_ok.mp h
    obtain ⟨rest, hrest, h⟩ := bind_eq_ok.mp h
    cases h
    rw [List.append_assoc]
    exact List.forall_mem_append.mpr ⟨mergedAll_formed ns hrest, entries_formed es hes⟩
  | .scalar t s :: ns, out, h => by cases h
  | .sequence t is :: ns, out, h => by cases h
  | .inside a isMapping :: ns, out, h => by cases h

end
end Node

theorem read_formed {s : String} {v : Value} (h : read s = .ok v) : v.Formed := by
  obtain ⟨n?, -, h⟩ := bind_eq_ok.mp h
  cases n? with
  | none =>
    cases h
    exact .null
  | some n => exact n.value_formed h

/-- The library of the program gives formed values. -/
theorem forming : Library.Forming := fun _ _ => read_formed

end Yaml

/-! ## JSON -/

namespace Json
open Value

theorem words_formed : ∀ e ∈ words, e.2.Formed := by
  simp only [words, List.forall_mem_cons]
  exact ⟨.null, .bool true, .bool false, .real _, .real _, .real _, by simp⟩

theorem number_formed {s r : List Char} {v : Value} (h : number s = .ok (v, r)) : v.Formed := by
  unfold number at h
  dsimp only at h
  split at h
  · cases h
  · split at h
    · split at h
      · cases h
        exact .int _
      · cases h
      · cases h
    · split at h
      · cases h
        exact .real _
      · cases h

theorem scalar_formed {s r : List Char} {v : Value} (h : scalar s = .ok (v, r)) : v.Formed := by
  unfold scalar at h
  split at h
  · next p hp =>
    cases h
    obtain ⟨⟨w, u⟩, hw, hv⟩ := List.exists_of_findSome?_eq_some hp
    obtain ⟨t, -, ht⟩ := Option.map_eq_some_iff.mp hv
    cases ht
    exact words_formed _ hw
  · exact number_formed h

/-- What the readers of values, of the entries of objects and of the items of arrays give under one bound on their
calls. -/
structure ReadersFormed (n : Nat) : Prop where
  value : ∀ {s r v}, value n s = .ok (v, r) → v.Formed
  entries : ∀ {es s fs r}, (Value.map es).Formed → entries n es s = .ok (fs, r) → (Value.map fs).Formed
  items : ∀ {s vs r}, items n s = .ok (vs, r) → ∀ v ∈ vs, v.Formed

theorem ReadersFormed.zero : ReadersFormed 0 where
  value := by
    intro s r v h
    have hscalar : scalar s = .ok (v, r) := by simpa [Json.value] using h
    exact scalar_formed hscalar
  entries := by
    intro es s fs r _ h
    have hstop : stop (α := Entries) .noName s = .ok (fs, r) := by simpa [Json.entries] using h
    cases hstop
  items := by
    intro s vs r h
    cases h

section
variable {n : Nat} {s r : List Char}

theorem ReadersFormed.value_step (ih : ReadersFormed n) {v : Value} (h : Json.value (n + 1) s = .ok (v, r)) : v.Formed := by
  unfold Json.value at h
  split at h
  · obtain ⟨⟨t, u⟩, -, ht⟩ := map_eq_ok.mp h
    cases ht
    exact .text t
  · next hn =>
    cases hn
    split at h
    · cases h
      exact .map List.Pairwise.nil (by simp)
    · obtain ⟨⟨es, u⟩, hes, he⟩ := map_eq_ok.mp h
      cases he
      exact ih.entries (.map List.Pairwise.nil (by simp)) hes
  · next hn =>
    cases hn
    split at h
    · cases h
      exact .list (by simp)
    · obtain ⟨⟨vs, u⟩, hvs, he⟩ := map_eq_ok.mp h
      cases he
      exact .list (ih.items hvs)
  · exact scalar_formed h

theorem ReadersFormed.entries_step (ih : ReadersFormed n) {es fs : Entries} (hes : (Value.map es).Formed)
    (h : Json.entries (n + 1) es s = .ok (fs, r)) : (Value.map fs).Formed := by
  unfold Json.entries at h
  split at h
  · next hn =>
    cases hn
    obtain ⟨⟨name, u⟩, -, h⟩ := bind_eq_ok.mp h
    obtain ⟨⟨⟨⟩, u⟩, -, h⟩ := bind_eq_ok.mp h
    obtain ⟨⟨w, u⟩, hw, h⟩ := bind_eq_ok.mp h
    have hput := hes.put (.text name) (ih.value hw)
    dsimp only at h
    split at h
    · cases h
      exact hput
    · exact ih.entries hput h
    · cases h
  · cases h

theorem ReadersFormed.items_step (ih : ReadersFormed n) {vs : List Value} (h : Json.items (n + 1) s = .ok (vs, r)) :
    ∀ v ∈ vs, v.Formed := by
  unfold Json.items at h
  obtain ⟨⟨w, u⟩, hw, h⟩ := bind_eq_ok.mp h
  dsimp only at h
  split at h
  · cases h
    exact List.forall_mem_singleton.mpr (ih.value hw)
  · obtain ⟨⟨ws, u⟩, hws, h⟩ := bind_eq_ok.mp h
    cases h
    exact List.forall_mem_cons.mpr ⟨ih.value hw, ih.items hws⟩
  · cases h

end

theorem readers_formed (n : Nat) : ReadersFormed n := by
  induction n with
  | zero => exact .zero
  | succ n ih => exact ⟨ih.value_step, ih.entries_step, ih.items_step⟩

theorem read_formed {s : String} {v : Value} (h : read s = .ok v) : v.Formed := by
  unfold read at h
  have hread := mapError_eq_ok.mp h
  split at hread
  · cases hread
  · unfold whole at hread
    split at hread
    · cases hread
    · next w r hw =>
      split at hread
      · cases hread
        exact (readers_formed _).value hw
      · cases hread

end Json

/-! ## Schemas -/

namespace Schema
variable [Yaml.Library] (hyaml : Yaml.Library.Forming)
include hyaml

theorem ofFileText_formed {p : Path} {text : String} {v : Value} (h : ofFileText p text = .ok v) : v.Formed := by
  unfold ofFileText at h
  split at h
  · exact Json.read_formed (mapError_eq_ok.mp h)
  · exact hyaml _ _ (mapError_eq_ok.mp h)

/-- A schema that is loaded is a formed value. -/
theorem load_formed {fs : Files} {s : String} {v : Value} (h : load fs s = .ok v) : v.Formed := by
  unfold load at h
  dsimp only at h
  split at h
  · obtain ⟨text, -, h⟩ := bind_eq_ok.mp h
    exact ofFileText_formed hyaml h
  · unfold ofInline at h
    split at h
    · next w hw =>
      cases h
      exact Json.read_formed hw
    · cases h
      exact .text s
    · cases h

end Schema
end Harvest
