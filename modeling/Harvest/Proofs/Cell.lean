import Harvest.Filter.Standard
import Harvest.Proofs.Meaning
import Harvest.Proofs.Memo

/-
  What the filters of the library make of an element.

  A class of values is stable when it has what elements give and what single filters make of text (`Value.Stable`). No
  filter of the library leaves such a class (`standard_preserves`), so no chain of them does (`runSteps_preserves`), and
  the values of an expression are in it (`single_mem`, `plural_mem`). One such class are the cells: absence, texts,
  numbers, truth values and lists of texts (`Value.IsCell`).
-/
namespace Harvest
open Markup

/-- Absence, a text, a number, a truth value, or a list of texts. -/
inductive Value.IsCell : Value → Prop where
  | null : IsCell .null
  | text (s : String) : IsCell (.text s)
  | int (i : Int) : IsCell (.int i)
  | bool (b : Bool) : IsCell (.bool b)
  | texts (ss : List String) : IsCell (.list (ss.map .text))

/-! ## Filters -/

/-- A class of values that has what elements give, and what the filters of the library make of text. -/
structure Value.Stable (P : Value → Prop) : Prop where
  null : P .null
  text (s : String) : P (.text s)
  bool (b : Bool) : P (.bool b)
  texts (ss : List String) : P (.list (ss.map .text))
  nodeType (e : Element) : P (.int (if e.isDocument then 9 else 1))
  number {ds : List Char} {w : Value} (h : Filter.numberOf ds = .ok w) : P w
  size {amount : List Char} {factor : Nat} {w : Value} (h : Filter.bytesOf amount factor = .ok w) : P w

namespace Filter

/-- A filter that makes cells of cells. -/
def Keeps (f : Filter) : Prop := ∀ v args w, v.IsCell → f.run v args = .ok w → w.IsCell

/-- A filter that does not leave a class of values. -/
def Preserves (P : Value → Prop) (f : Filter) : Prop := ∀ v args w, P v → f.run v args = .ok w → P w

variable {P : Value → Prop} {s : Signature}

theorem ofValue_preserves {f : Value → List String → Except FilterFault Value}
    (h : ∀ v args w, P v → f v args = .ok w → P w) : Preserves P (ofValue s f) := by
  intro v args w hv hw
  simp only [ofValue] at hw
  split at hw
  · cases hw
  · exact h _ _ _ hv hw

section
variable (hP : Value.Stable P)
include hP

theorem ofText_preserves {f : List Char → List String → Except FilterFault Value}
    (h : ∀ t args w, f t args = .ok w → P w) : Preserves P (ofText s f) := by
  intro v args w _ hw
  simp only [ofText] at hw
  split at hw
  · cases hw; exact hP.null
  · split at hw
    · cases hw
    · exact h _ _ _ hw

/-- A filter that makes a text of a text. -/
theorem ofText_text_preserves (f : List Char → List String → List Char) :
    Preserves P (ofText s fun t args => .ok (textValue (f t args))) :=
  ofText_preserves hP fun _ _ _ h => by cases h; exact hP.text _

theorem numberIn_mem {t : List Char} {w : Value} (h : numberIn t = .ok w) : P w := by
  simp only [numberIn] at h
  split at h
  · cases h; exact hP.null
  · exact hP.number h

theorem digits_preserves : Preserves P digits := by
  refine ofValue_preserves fun v args w hv h => ?_
  split at h
  · cases h; exact hP.null
  · cases h; exact hP.null
  · cases h; exact hv
  · exact numberIn_mem hP h

theorem sizeIn_mem {t : List Char} {w : Value} (h : sizeIn t = .ok w) : P w := by
  simp only [sizeIn] at h
  split at h
  · exact hP.number h
  · split at h
    · cases h; exact hP.null
    · exact hP.size h

theorem bytes_preserves : Preserves P bytes := by
  refine ofValue_preserves fun v args w _ h => ?_
  split at h
  · cases h; exact hP.null
  · exact sizeIn_mem hP h

theorem split_preserves : Preserves P split := by
  refine ofText_preserves hP fun t args w h => ?_
  simp only at h
  split at h
  · cases h
  · cases h
    have hw := hP.texts ((Text.cut (argument args 0 " ") t).map String.ofList)
    rw [List.map_map] at hw
    exact hw

theorem fallback_preserves : Preserves P fallback := by
  refine ofValue_preserves fun v args w hv h => ?_
  split at h
  · cases h; exact hP.text _
  · cases h; exact hP.text _
  · cases h; exact hv

theorem absolute_preserves : Preserves P absolute := by
  refine ofText_preserves hP fun t args w h => ?_
  split at h
  · cases h; exact hP.text _
  · cases h

theorem secure_preserves : Preserves P secure := ofText_preserves hP fun _ _ _ h => by cases h; exact hP.bool _

/-- No filter of the library leaves a stable class. -/
theorem standard_preserves : ∀ p ∈ standard, Preserves P p.2 := by
  -- in the order of the registry
  simp only [standard, List.forall_mem_cons]
  exact ⟨ofText_text_preserves hP _, ofText_text_preserves hP _, ofText_text_preserves hP _,
    ofText_text_preserves hP _, ofText_text_preserves hP _, ofText_text_preserves hP _, digits_preserves hP,
    bytes_preserves hP, split_preserves hP, ofText_text_preserves hP _, ofText_text_preserves hP _,
    ofText_text_preserves hP _, fallback_preserves hP, absolute_preserves hP, ofText_text_preserves hP _,
    secure_preserves hP, fun _ h => absurd h List.not_mem_nil⟩

end
end Filter

/-! ## Queries -/

section
variable {P : Value → Prop}

/-- A chain of filters that do not leave a class does not, either. -/
theorem runSteps_preserves {ss : List Step} (hs : ∀ s ∈ ss, s.filter.Preserves P) {v w : Value} (hv : P v)
    (h : runSteps v ss = .ok w) : P w := by
  induction ss generalizing v with
  | nil => cases h; exact hv
  | cons s ss ih =>
    rw [runSteps] at h
    split at h
    · next u hu => exact ih (fun t ht => hs t (by simp [ht])) (hs s (by simp) v s.args u hv hu) h
    · cases h

variable (hP : Value.Stable P)
include hP

theorem property_mem (e : Element) (name : String) : P (property e name) := by
  unfold property
  split
  · exact hP.text _
  · exact hP.text _
  · exact hP.text _
  · exact hP.nodeType e
  · exact hP.null

theorem attributeValue_mem (e : Element) (name : String) : P (attributeValue e name) := by
  unfold attributeValue
  split
  · exact hP.text _
  · exact hP.null

/-- What is taken from an element is in a stable class. -/
theorem Query.raw_mem (q : Query) (e : Element) : P (q.raw e) := by
  unfold Query.raw
  split
  · exact hP.text _
  · split
    · exact hP.text _
    · split
      · exact property_mem hP e _
      · exact attributeValue_mem hP e _

end

/-! ## Expressions -/

namespace Meaning
variable {P : Value → Prop} {x : Engine} {e : String} {scope : Scope}

theorem render_mem (hP : Value.Stable P) {q : Query} (hq : ∀ s ∈ q.steps, s.filter.Preserves P) {el : Element}
    {v : Value} (h : render q el = .ok v) : P v := by
  unfold render at h
  split at h
  · next w hw => cases h; exact runSteps_preserves hq (q.raw_mem hP el) hw
  · cases h

/-- The steps of a query have their filters from the dialect. -/
theorem query_steps {q : Query} (h : query x e = .ok q) : ∀ s ∈ q.steps, ∃ n, (n, s.filter) ∈ x.dialect.filters := by
  intro s hs
  unfold query at h
  split at h
  · next p events hr =>
    cases h
    obtain ⟨-, is, his⟩ := Dialect.read_form hr
    exact Registry.mem_of_bind (his ▸ hs)
  · cases h

/-- The steps of a query do not leave a class that no filter of the dialect leaves. -/
theorem query_preserves (hf : ∀ p ∈ x.dialect.filters, p.2.Preserves P) {q : Query} (h : query x e = .ok q) :
    ∀ s ∈ q.steps, s.filter.Preserves P := by
  intro s hs
  obtain ⟨n, hn⟩ := query_steps h s hs
  exact hf _ hn

variable [Css.Library]

/-- The value of an expression is in a stable class. -/
theorem single_mem (hP : Value.Stable P) (hf : ∀ p ∈ x.dialect.filters, p.2.Preserves P) (hx : x.queryHook = none)
    {v : Value} (h : single x e scope = .ok v) : P v := by
  rw [single_eq hx] at h
  obtain ⟨q, hq, h⟩ := bind_eq_ok.mp h
  obtain ⟨el?, -, h⟩ := bind_eq_ok.mp h
  cases el? with
  | none => cases h; exact hP.null
  | some el => exact render_mem hP (query_preserves hf hq) h

/-- The values of the matches of an expression are in a stable class. -/
theorem plural_mem (hP : Value.Stable P) (hf : ∀ p ∈ x.dialect.filters, p.2.Preserves P) {vs : List Value}
    (h : plural x e scope = .ok vs) : ∀ v ∈ vs, P v := by
  intro v hv
  obtain ⟨q, hq, h⟩ := bind_eq_ok.mp h
  obtain ⟨s, -, h⟩ := bind_eq_ok.mp h
  obtain ⟨el, -, hel⟩ := exists_of_mapM h hv
  exact render_mem hP (query_preserves hf hq) hel

end Meaning

/-! ## Cells -/

theorem Value.IsCell.stable : Stable IsCell where
  null := .null
  text := .text
  bool := .bool
  texts := .texts
  nodeType _ := .int _
  number h := by
    unfold Filter.numberOf at h
    split at h
    · cases h; exact .int _
    · cases h
  size h := by
    unfold Filter.bytesOf at h
    split at h
    · cases h; exact .null
    · split at h
      · cases h; exact .int _
      · cases h

/-- No filter of the library leaves the cells. -/
theorem Filter.standard_keeps : ∀ p ∈ standard, Keeps p.2 := standard_preserves Value.IsCell.stable

namespace Meaning
variable [Css.Library] {x : Engine} {e : String} {scope : Scope}

/-- The value of an expression is a cell. -/
theorem single_isCell (hf : x.dialect.filters = Filter.standard) (hx : x.queryHook = none) {v : Value}
    (h : single x e scope = .ok v) : v.IsCell :=
  single_mem Value.IsCell.stable (hf ▸ Filter.standard_keeps) hx h

/-- The values of the matches of an expression are cells. -/
theorem plural_isCell (hf : x.dialect.filters = Filter.standard) {vs : List Value} (h : plural x e scope = .ok vs) :
    ∀ v ∈ vs, v.IsCell :=
  plural_mem Value.IsCell.stable (hf ▸ Filter.standard_keeps) h

end Meaning
end Harvest
