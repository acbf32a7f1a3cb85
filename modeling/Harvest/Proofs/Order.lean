import Harvest.Proofs.Root
import Harvest.Proofs.Uniform
import Mathlib.Data.List.Sort

/-
  Queries keep the order of the page.

  The elements of a scope may lie within one another, so that what is found within them overlaps; each element found
  counts at its first occurrence only.
    1. `Scope.elements_ofList_perm` — whatever the order of a scope, what is found are the elements of the page that
       pass and lie within an element of the scope, each of them once.
    2. `Scope.elements_ofList_eq` — if the scope is in document order, so is what is found. The induction is on the
       scope. What lies behind its first element has a later place. So what the others find and the first does not lies
       behind all that the first finds.
    3. `Css.uniform_of_scopeless` — what is asked of the library of selectors for this, that a selector tests all elements
       of a page alike (`Css.Uniform`), holds in the program of selectors without `:scope`.
-/
namespace Harvest
open Markup

/-! ## Keeping what comes first -/

section
variable {es fs : List Element} {e f : Element}

theorem mem_of_mem_keepFirst (h : e ∈ keepFirst es) : e ∈ es := by
  induction es with
  | nil => cases h
  | cons d es ih =>
    rcases List.mem_cons.mp h with rfl | h
    · exact List.mem_cons_self
    · exact List.mem_cons_of_mem d (ih (List.mem_of_mem_filter h))

/-- Each element is kept somewhere. -/
theorem exists_mem_keepFirst (h : e ∈ es) : ∃ d ∈ keepFirst es, d.sameAs e := by
  induction es with
  | nil => cases h
  | cons d es ih =>
    by_cases hd : d.sameAs e
    · exact ⟨d, List.mem_cons_self, hd⟩
    · rcases List.mem_cons.mp h with rfl | h
      · exact absurd (beq_self_eq_true _) hd
      · obtain ⟨c, hc, hce⟩ := ih h
        refine ⟨c, List.mem_cons_of_mem d (List.mem_filter.mpr ⟨hc, ?_⟩), hce⟩
        -- one that is the same as the first would make that the same as `e`
        have hplace : c.place = e.place := beq_iff_eq.mp hce
        have hne : d.place ≠ e.place := fun hp => hd (beq_iff_eq.mpr hp)
        simp [Element.sameAs, hplace, hne]

/-- Different elements are all kept. -/
theorem keepFirst_eq_self (h : es.Pairwise fun d e => d.sameAs e = false) : keepFirst es = es := by
  induction es with
  | nil => rfl
  | cons e es ih =>
    obtain ⟨he, hes⟩ := List.pairwise_cons.mp h
    rw [keepFirst, ih hes, List.filter_eq_self.mpr]
    intro f hf
    simp [he f hf]

/-- Of what comes behind, that is kept which has not come before. -/
theorem keepFirst_append (es fs : List Element) :
    keepFirst (es ++ fs) = keepFirst es ++ (keepFirst fs).filter fun f => !es.any (·.sameAs f) := by
  induction es with
  | nil => simp [keepFirst]
  | cons e es ih =>
    rw [List.cons_append, keepFirst, keepFirst, ih, List.filter_append, List.filter_filter, List.cons_append]
    simp [List.any_cons, Bool.not_or]

end

/-! ## What is found within a scope -/

/-- Whether an element lies within one of some elements. -/
def Markup.Element.liesIn (f : Element) (es : List Element) : Bool := f.ancestors.any fun d => es.any (d.sameAs ·)

/-- The elements of a page that pass a test and lie within one of some elements, in document order. -/
def Markup.Element.found (page : Element) (passes : Element → Bool) (es : List Element) : List Element :=
  page.descendants.filter fun f => passes f && f.liesIn es

namespace Scope
variable {nodes : List Node} {passes : Element → Bool} {es : List Element} {e f : Element}

theorem sameAs_iff (he : e ∈ (Element.document nodes).subtree) (hf : f ∈ (Element.document nodes).subtree) :
    e.sameAs f ↔ e = f := by
  constructor
  · exact fun h => Element.eq_of_place he hf (beq_iff_eq.mp h)
  · rintro rfl
    exact beq_self_eq_true _

theorem liesIn_iff (hf : f ∈ (Element.document nodes).subtree) (hes : es ⊆ (Element.document nodes).subtree) :
    f.liesIn es ↔ ∃ e ∈ es, f ∈ e.descendants := by
  rw [Element.liesIn, List.any_eq_true]
  constructor
  · rintro ⟨d, hd, h⟩
    obtain ⟨e, he, hde⟩ := List.any_eq_true.mp h
    obtain ⟨hpage, hin⟩ := Element.seats hf d hd
    obtain rfl := (sameAs_iff hpage (hes he)).mp hde
    exact ⟨d, he, hin⟩
  · rintro ⟨e, he, h⟩
    exact ⟨e, Element.mem_ancestors h, List.any_eq_true.mpr ⟨e, he, beq_self_eq_true _⟩⟩

/-- What is found within elements of a page lies in the page. -/
theorem flatMap_subset (hes : es ⊆ (Element.document nodes).subtree) :
    es.flatMap (fun e => e.descendants.filter passes) ⊆ (Element.document nodes).subtree := by
  intro f hf
  obtain ⟨e, he, hf⟩ := List.mem_flatMap.mp hf
  exact Element.descendants_subset (hes he) (List.mem_of_mem_filter hf)

theorem mem_keepFirst_iff (hes : es ⊆ (Element.document nodes).subtree) : f ∈ keepFirst es ↔ f ∈ es := by
  refine ⟨mem_of_mem_keepFirst, fun hf => ?_⟩
  obtain ⟨d, hd, hdf⟩ := exists_mem_keepFirst hf
  obtain rfl := (sameAs_iff (hes (mem_of_mem_keepFirst hd)) (hes hf)).mp hdf
  exact hd

theorem nodup_keepFirst (es : List Element) : (keepFirst es).Nodup := by
  refine (keepFirst_distinct es).imp ?_
  rintro d e h rfl
  rw [Element.sameAs, beq_self_eq_true] at h
  cases h

theorem pairwise_subtree (nodes : List Node) :
    (Element.document nodes).subtree.Pairwise fun e f => e.place < f.place := by
  have hplaces : ((Element.document nodes).subtree.map (·.place)).Pairwise (· < ·) := by
    rw [Element.places_document]
    exact List.pairwise_lt_range'
  exact List.pairwise_map.mp hplaces

theorem mem_found (hes : es ⊆ (Element.document nodes).subtree) :
    f ∈ (Element.document nodes).found passes es ↔ ∃ e ∈ es, f ∈ e.descendants ∧ passes f := by
  rw [Element.found, List.mem_filter, Bool.and_eq_true]
  constructor
  · rintro ⟨hf, hpasses, hin⟩
    obtain ⟨e, he, hfe⟩ := (liesIn_iff (List.mem_cons_of_mem _ hf) hes).mp hin
    exact ⟨e, he, hfe, hpasses⟩
  · rintro ⟨e, he, hfe, hpasses⟩
    have hf := (Element.descendants_sublist (hes he)).subset hfe
    exact ⟨hf, hpasses, (liesIn_iff (List.mem_cons_of_mem _ hf) hes).mpr ⟨e, he, hfe⟩⟩

/-- What is found within the elements of a scope are the elements of the page that pass and lie within one of them. -/
theorem elements_ofList_perm (hes : es ⊆ (Element.document nodes).subtree) :
    (ofList (es.flatMap fun e => e.descendants.filter passes)).elements.Perm
      ((Element.document nodes).found passes es) := by
  have hnodup : (Element.document nodes).descendants.Nodup := by
    refine ((pairwise_subtree nodes).sublist (List.sublist_cons_self _ _)).imp ?_
    rintro e f h rfl
    exact Nat.lt_irrefl _ h
  refine (List.perm_ext_iff_of_nodup (nodup_keepFirst _) (hnodup.filter _)).mpr fun f => ?_
  rw [mem_keepFirst_iff (flatMap_subset hes), List.mem_flatMap]
  change _ ↔ f ∈ (Element.document nodes).found passes es
  rw [mem_found hes]
  simp only [List.mem_filter]

/-- Within elements in document order, what is found is in document order. -/
theorem pairwise_keepFirst (hes : es.Sublist (Element.document nodes).subtree) :
    (keepFirst (es.flatMap fun e => e.descendants.filter passes)).Pairwise fun e f => e.place < f.place := by
  induction es with
  | nil => exact .nil
  | cons e es ih =>
    have he : e ∈ (Element.document nodes).subtree := hes.subset List.mem_cons_self
    have hrest : es.Sublist (Element.document nodes).subtree := (List.sublist_cons_self e es).trans hes
    have hlater : ∀ d ∈ es, e.place < d.place := (List.pairwise_cons.mp ((pairwise_subtree nodes).sublist hes)).1
    have hfirst : (e.descendants.filter passes).Pairwise fun e f => e.place < f.place := by
      refine (pairwise_subtree nodes).sublist (List.filter_sublist.trans ?_)
      exact (Element.descendants_sublist he).trans (List.sublist_cons_self _ _)
    have hself : keepFirst (e.descendants.filter passes) = e.descendants.filter passes := by
      refine keepFirst_eq_self (hfirst.imp fun {d f} h => ?_)
      exact beq_false_of_ne (Nat.ne_of_lt h)
    rw [List.flatMap_cons, keepFirst_append, hself]
    refine List.pairwise_append.mpr ⟨hfirst, (ih hrest).filter _, fun a ha b hb => ?_⟩
    obtain ⟨hb, hnew⟩ := List.mem_filter.mp hb
    obtain ⟨d, hd, hb⟩ := List.mem_flatMap.mp (mem_of_mem_keepFirst hb)
    obtain ⟨hbd, hpasses⟩ := List.mem_filter.mp hb
    have hdpage := hrest.subset hd
    have hbpage := Element.descendants_subset hdpage hbd
    have hbehind : e.place < b.place :=
      Nat.lt_trans (hlater d hd) ((Element.mem_descendants_iff_place hdpage hbpage).mp hbd).1
    -- it does not lie within the first element, since it would have been found there
    have hout : b ∉ e.descendants := by
      intro hbe
      have hfound : (e.descendants.filter passes).any (·.sameAs b) :=
        List.any_eq_true.mpr ⟨b, List.mem_filter.mpr ⟨hbe, hpasses⟩, beq_self_eq_true _⟩
      rw [hfound] at hnew
      cases hnew
    have hae := List.mem_of_mem_filter ha
    have hapage := Element.descendants_subset he hae
    rw [Element.mem_descendants_iff_place he hbpage] at hout
    rw [Element.mem_descendants_iff_place he hapage] at hae
    omega

/-- Within elements in document order, what is found are, in document order, the elements of the page that pass and lie
within one of them. -/
theorem elements_ofList_eq (hes : es.Sublist (Element.document nodes).subtree) :
    (ofList (es.flatMap fun e => e.descendants.filter passes)).elements
      = (Element.document nodes).found passes es := by
  have hsorted : ((Element.document nodes).found passes es).Pairwise fun e f => e.place < f.place :=
    (pairwise_subtree nodes).sublist (List.filter_sublist.trans (List.sublist_cons_self _ _))
  refine (elements_ofList_perm hes.subset).eq_of_pairwise (fun e f _ _ hef hfe => ?_) (pairwise_keepFirst hes) hsorted
  exact absurd hfe (Nat.lt_asymm hef)

section
variable [Css.Library] {t : String} {f : Css.Finder}

/-- A valid selector finds what passes its test, if it tests all elements of the page alike. -/
theorem exists_findAll (hread : Css.Library.read t = .ok f)
    (huniform : Css.Uniform (Element.document nodes) f passes) {scope : Scope}
    (hscope : scope.elements ⊆ (Element.document nodes).subtree) :
    scope.findAll t = .ok (ofList (scope.elements.flatMap fun e => e.descendants.filter passes), []) := by
  have hall : scope.elements.mapM f.all = .ok (scope.elements.map fun e => e.descendants.filter passes) :=
    mapM_ok fun e he => huniform e (hscope he)
  rw [findAll, search, hread]
  split
  · next hempty =>
    rw [List.isEmpty_iff.mp hempty]
    rfl
  · simp only [ok_bind, hall, pure_eq_ok, List.flatMap_def]

/-- What is left when searches follow one another, each within what the one before has found. -/
def chain (s : Scope) : List String → Except Css.Fault Scope
  | [] => .ok s
  | t :: ts => do
    let (found, _) ← s.findAll t
    found.chain ts

/-- A chain of searches does not leave document order. -/
theorem exists_chain {ts : List String} (hts : ∀ t ∈ ts, ∃ f passes, Css.Library.read t = .ok f ∧
      Css.Uniform (Element.document nodes) f passes) {scope : Scope}
    (hscope : scope.elements.Sublist (Element.document nodes).subtree) :
    ∃ last, scope.chain ts = .ok last ∧ last.elements.Sublist (Element.document nodes).subtree := by
  induction ts generalizing scope with
  | nil => exact ⟨scope, rfl, hscope⟩
  | cons t ts ih =>
    obtain ⟨f, passes, hread, huniform⟩ := hts t List.mem_cons_self
    have hfound : (ofList (scope.elements.flatMap fun e => e.descendants.filter passes)).elements.Sublist
        (Element.document nodes).subtree := by
      rw [elements_ofList_eq hscope]
      exact List.filter_sublist.trans (List.sublist_cons_self _ _)
    rw [chain, exists_findAll hread huniform hscope.subset, ok_bind]
    exact ih (fun u hu => hts u (List.mem_cons_of_mem t hu)) hfound

end

/-- Queries keep document order and multiplicity. Let a valid selector test all elements of a page alike, as those
without `:scope` do. Within the elements of a scope it finds the elements of the page that pass its test and lie within
one of them, each once; and where the scope is in document order, it finds them in document order. So a chain of such
searches that starts in document order, from the page or from elsewhere, stays in it. -/
theorem findAll_inOrder [Css.Library] (nodes : List Node) :
    let page := Element.document nodes
    (∀ {t : String} {f : Css.Finder} {passes : Element → Bool}, Css.Library.read t = .ok f →
        Css.Uniform page f passes → ∀ scope : Scope, scope.elements ⊆ page.subtree →
        ∃ found, scope.findAll t = .ok (found, []) ∧ found.elements.Nodup
          ∧ found.elements.Perm (page.found passes scope.elements)
          ∧ (scope.elements.Sublist page.subtree → found.elements = page.found passes scope.elements))
      ∧ (∀ ts : List String, (∀ t ∈ ts, ∃ f passes, Css.Library.read t = .ok f ∧ Css.Uniform page f passes) →
        ∀ scope : Scope, scope.elements.Sublist page.subtree →
        ∃ last, scope.chain ts = .ok last ∧ last.elements.Sublist page.subtree)
      ∧ ∀ sel : Css.Selector, sel.scopeless →
        Css.Uniform page sel.finder (Css.Selector.matches (Css.Search.from page) · sel) := by
  refine ⟨fun hread huniform scope hscope => ?_, fun ts hts scope hscope => exists_chain hts hscope,
    fun sel hsel => Css.uniform_of_scopeless hsel nodes⟩
  exact ⟨_, exists_findAll hread huniform hscope, nodup_keepFirst _, elements_ofList_perm hscope, elements_ofList_eq⟩

/-- On a page of two items, within the page and its first item: the title is found once, and a chain of searches for
items and titles stays in order. -/
theorem findAll_inOrder_sample :
    let scope : Scope := ofList [Sample.page, Sample.first]
    (∃ found, scope.findAll "b" = .ok (found, []) ∧ found.elements = [Sample.title])
      ∧ ∃ last, (of Sample.page).chain ["li", "b"] = .ok last ∧ last.elements.Sublist Sample.page.subtree := by
  have law := findAll_inOrder [.element ⟨"li", []⟩ [.element ⟨"b", []⟩ [.text "x"]], .element ⟨"li", []⟩ []]
  have hb : Css.Library.read "b" = .ok (Css.Selector.finder [.one [.name "b"]]) := rfl
  have hscope : [Sample.page, Sample.first].Sublist Sample.page.subtree := by
    rw [Element.subtree, Sample.descendants_page]
    simp
  have huniform : ∀ n, Css.Uniform Sample.page (Css.Selector.finder [.one [.name n]]) _ :=
    fun n => law.2.2 [.one [.name n]] rfl
  refine ⟨?_, law.2.1 _ ?_ (of Sample.page) ?_⟩
  · obtain ⟨found, hfound, -, -, heq⟩ := law.1 hb (huniform "b") (ofList [Sample.page, Sample.first]) hscope.subset
    refine ⟨found, hfound, ?_⟩
    have hpage : Element.descendants (.document _) = _ := Sample.descendants_page
    rw [heq hscope, Element.found, hpage]
    rfl
  · simp only [List.forall_mem_cons]
    exact ⟨⟨_, _, Sample.read_item, huniform "li"⟩, ⟨_, _, hb, huniform "b"⟩, by simp⟩
  · exact List.Sublist.cons_cons _ (List.nil_sublist _)

end Scope
end Harvest
