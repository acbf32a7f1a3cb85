import Harvest.Css.Match
import Harvest.Proofs.Descent

/-
  Selectors that test all elements of a page alike.

  A test may look all over the page, but for one thing it does not depend on where a search begins: only `:scope` asks
  for that. So a selector without `:scope` picks from every element of a page those elements within it that pass one and
  the same test (`uniform_of_scopeless`). The induction is on the selector (`anyMatches_congr` and its companions), one
  case for each way to build tests and chains.
-/
namespace Harvest.Css
open Markup

/-- Whether a selector picks those elements within another that pass a test, all over a page. -/
def Uniform (page : Element) (f : Finder) (passes : Element → Bool) : Prop :=
  ∀ e ∈ page.subtree, f.all e = .ok (e.descendants.filter passes)

mutual

/-- Whether a test does without `:scope`. -/
def Simple.scopeless : Simple → Bool
  | .scope => false
  | .nthOf _ cs | .oneOf cs | .noneOf cs => scopelessAlternatives cs
  | .leadsTo rs => scopelessLeads rs
  | .never | .name _ | .id _ | .ofClass _ | .attribute _ _ _ | .root | .empty | .state _ | .containsText _ _
  | .nthChild _ | .nthOfType _ => true

/-- The same of all tests of a compound. -/
def scopelessTests : List Simple → Bool
  | [] => true
  | t :: ts => t.scopeless && scopelessTests ts

/-- The same of a chain. -/
def Complex.scopeless : Complex → Bool
  | .one ts => scopelessTests ts
  | .seq left _ ts => left.scopeless && scopelessTests ts

/-- The same of all chains of a selector. -/
def scopelessAlternatives : List Complex → Bool
  | [] => true
  | c :: cs => c.scopeless && scopelessAlternatives cs

/-- The same of a chain that goes forward. -/
def Relative.scopeless : Relative → Bool
  | .last _ ts => scopelessTests ts
  | .step _ ts rest => scopelessTests ts && rest.scopeless

/-- The same of several such chains. -/
def scopelessLeads : List Relative → Bool
  | [] => true
  | r :: rs => r.scopeless && scopelessLeads rs

end

/-- Whether a selector does without `:scope`. -/
def Selector.scopeless (sel : Selector) : Bool := scopelessAlternatives sel

section
variable {s s' : Search}

mutual

/-- Without `:scope` a test gives the same in all searches of a page. -/
theorem Simple.matches_congr (hroot : s.root = s'.root) : ∀ {t : Simple}, t.scopeless →
    ∀ e, t.matches s e = t.matches s' e
  | .scope, h, _ => by cases h
  | .root, _, e => by rw [Simple.matches, Simple.matches, isRoot, isRoot, hroot]
  | .nthOf p cs, h, e => by
    have hcs : ∀ e, anyMatches s e cs = anyMatches s' e cs := anyMatches_congr hroot h
    simp only [Simple.matches, hcs]
  | .oneOf cs, h, e => by
    have hcs : ∀ e, anyMatches s e cs = anyMatches s' e cs := anyMatches_congr hroot h
    rw [Simple.matches, Simple.matches, hcs]
  | .noneOf cs, h, e => by
    have hcs : ∀ e, anyMatches s e cs = anyMatches s' e cs := anyMatches_congr hroot h
    rw [Simple.matches, Simple.matches, hcs]
  | .leadsTo rs, h, e => by
    have hrs : ∀ e, anyLeads s e rs = anyLeads s' e rs := anyLeads_congr hroot h
    rw [Simple.matches, Simple.matches, hrs]
  | .never, _, _ | .name _, _, _ | .id _, _, _ | .ofClass _, _, _ | .attribute _ _ _, _, _ | .empty, _, _
  | .state _, _, _ | .containsText _ _, _, _ | .nthChild _, _, _ | .nthOfType _, _, _ => by rw [Simple.matches, Simple.matches]

theorem allMatch_congr (hroot : s.root = s'.root) : ∀ {ts : List Simple}, scopelessTests ts →
    ∀ e, allMatch s e ts = allMatch s' e ts
  | [], _, _ => by rw [allMatch, allMatch]
  | t :: ts, h, e => by
    obtain ⟨ht, hts⟩ := Bool.and_eq_true_iff.mp h
    rw [allMatch, allMatch, Simple.matches_congr hroot ht, allMatch_congr hroot hts]

theorem Complex.matches_congr (hroot : s.root = s'.root) : ∀ {c : Complex}, c.scopeless →
    ∀ e, c.matches s e = c.matches s' e
  | .one ts, h, e => by
    have hts : ∀ e, allMatch s e ts = allMatch s' e ts := allMatch_congr hroot h
    rw [Complex.matches, Complex.matches, hts]
  | .seq left c ts, h, e => by
    obtain ⟨hleft, hts⟩ := Bool.and_eq_true_iff.mp h
    have hany := Complex.matches_congr hroot hleft
    rw [Complex.matches, Complex.matches, allMatch_congr hroot hts]
    simp only [hany]

theorem anyMatches_congr (hroot : s.root = s'.root) : ∀ {cs : List Complex}, scopelessAlternatives cs →
    ∀ e, anyMatches s e cs = anyMatches s' e cs
  | [], _, _ => by rw [anyMatches, anyMatches]
  | c :: cs, h, e => by
    obtain ⟨hc, hcs⟩ := Bool.and_eq_true_iff.mp h
    rw [anyMatches, anyMatches, Complex.matches_congr hroot hc, anyMatches_congr hroot hcs]

theorem Relative.leads_congr (hroot : s.root = s'.root) : ∀ {r : Relative}, r.scopeless →
    ∀ e, r.leads s e = r.leads s' e
  | .last c ts, h, e => by
    have hts : ∀ e, allMatch s e ts = allMatch s' e ts := allMatch_congr hroot h
    simp only [Relative.leads, hts]
  | .step c ts rest, h, e => by
    obtain ⟨hts, hrest⟩ := Bool.and_eq_true_iff.mp h
    have hall := allMatch_congr hroot hts
    have hleads := Relative.leads_congr hroot hrest
    simp only [Relative.leads, hall, hleads]

theorem anyLeads_congr (hroot : s.root = s'.root) : ∀ {rs : List Relative}, scopelessLeads rs →
    ∀ e, anyLeads s e rs = anyLeads s' e rs
  | [], _, _ => by rw [anyLeads, anyLeads]
  | r :: rs, h, e => by
    obtain ⟨hr, hrs⟩ := Bool.and_eq_true_iff.mp h
    rw [anyLeads, anyLeads, Relative.leads_congr hroot hr, anyLeads_congr hroot hrs]

end
end

/-- All searches in a page have the same root. -/
theorem root_from {nodes : List Node} {e : Element} (he : e ∈ (Element.document nodes).subtree) :
    (Search.from e).root = (Search.from (Element.document nodes)).root := by
  rw [Search.from, Element.ancestors_getLastD he]
  rfl

/-- A selector without `:scope` tests all elements of a page alike. -/
theorem uniform_of_scopeless {sel : Selector} (h : sel.scopeless) (nodes : List Node) :
    Uniform (Element.document nodes) sel.finder (Selector.matches (Search.from (Element.document nodes)) · sel) := by
  intro e he
  have hsame : ∀ f, Selector.matches (Search.from e) f sel
      = Selector.matches (Search.from (Element.document nodes)) f sel := anyMatches_congr (root_from he) h
  show Except.ok (select sel e) = _
  rw [select]
  simp only [hsame]

end Harvest.Css
