import Harvest.Markup.Element
import Mathlib.Data.List.Nodup
import Mathlib.Data.List.Range

/-
  Elements within elements.

  `Element.within` walks through nodes and hands out each element with its place and the way down to it. So what it
  hands out fits together:
    1. `places_descendants` — the elements within another have the places that follow its own, one after the other.
       Document order is the order of places, and in one page a place has one element (`eq_of_place`).
    2. `descendants_sublist` — what lies within an element lies within all elements around it, in the same order.
    3. `height_lt` — the elements within another have fewer levels of elements below them.
    4. `seats` — the way of an element in a page goes through elements of the page, and the element lies within them.
    5. `ancestors_getLastD` — the way of each element begins at the page.
-/
namespace Harvest.Markup.Element

/-- An element and those within it, in document order. -/
def subtree (e : Element) : List Element := e :: e.descendants

/-- How many levels of elements nodes have. -/
def levels : List Node → Nat
  | [] => 0
  | .element _ cs :: ns => max (levels cs + 1) (levels ns)
  | .text _ :: ns => levels ns
  | .comment _ :: ns => levels ns

/-- How many levels of elements lie within an element. -/
def height (e : Element) : Nat := levels e.children

/-- The element whose children are these nodes and those before them. -/
def holder (way : List Level) (place : Nat) (tag : Tag) (before ns : List Node) : Element :=
  ⟨place, tag, before.reverse ++ ns, way⟩

section
variable {way : List Level} {place : Nat} {tag : Tag}

theorem holder_cons (before : List Node) (n : Node) (ns : List Node) :
    holder way place tag (n :: before) ns = holder way place tag before (n :: ns) := by
  simp [holder]

/-- The way of a child goes through the element that holds it. -/
theorem ancestors_child (before : List Node) (next : Nat) (t : Tag) (cs ns : List Node) :
    ancestors ⟨next, t, cs, ⟨place, tag, before, ns⟩ :: way⟩
      = holder way place tag before (.element t cs :: ns)
        :: ancestors (holder way place tag before (.element t cs :: ns)) := rfl

/-! ## Places -/

theorem places_within (way : List Level) (place : Nat) (tag : Tag) (before : List Node) (next : Nat) :
    ∀ ns : List Node, (within way place tag before next ns).map (·.place) = List.range' next (countElements ns)
  | [] => by rw [within, countElements, List.map_nil, List.range'_zero]
  | .text s :: ns => by
    rw [within, countElements, places_within way place tag (.text s :: before) next ns]
  | .comment s :: ns => by
    rw [within, countElements, places_within way place tag (.comment s :: before) next ns]
  | .element t cs :: ns => by
    have hinside := places_within (⟨place, tag, before, ns⟩ :: way) next t [] (next + 1) cs
    have hbehind := places_within way place tag (.element t cs :: before) (next + 1 + countElements cs) ns
    rw [within, List.map_cons, List.map_append, hinside, hbehind, List.range'_append_1, countElements,
      Nat.add_comm 1, Nat.add_right_comm, List.range'_succ]

/-- The places within an element follow its own. -/
theorem places_descendants (e : Element) :
    e.descendants.map (·.place) = List.range' (e.place + 1) (countElements e.children) :=
  places_within e.way e.place e.tag [] (e.place + 1) e.children

/-! ## Elements around and within -/

theorem within_sublist (way : List Level) (place : Nat) (tag : Tag) (before : List Node) (next : Nat) :
    ∀ (ns : List Node) {e : Element}, e ∈ within way place tag before next ns →
      e.descendants.Sublist (within way place tag before next ns)
  | [], _, he => by
    rw [within] at he
    cases he
  | .text s :: ns, _, he => by
    rw [within] at he ⊢
    exact within_sublist way place tag (.text s :: before) next ns he
  | .comment s :: ns, _, he => by
    rw [within] at he ⊢
    exact within_sublist way place tag (.comment s :: before) next ns he
  | .element t cs :: ns, e, he => by
    rw [within] at he ⊢
    refine .cons _ ?_
    rcases List.mem_cons.mp he with rfl | he
    · exact List.sublist_append_left _ _
    · rcases List.mem_append.mp he with he | he
      · have hinside := within_sublist _ next t [] (next + 1) cs he
        exact hinside.trans (List.sublist_append_left _ _)
      · have hbehind := within_sublist way place tag _ _ ns he
        exact hbehind.trans (List.sublist_append_right _ _)

/-- What lies within an element lies within those around it, in the same order. -/
theorem descendants_sublist {d e : Element} (he : e ∈ d.subtree) : e.descendants.Sublist d.descendants := by
  rcases List.mem_cons.mp he with rfl | he
  · exact List.Sublist.refl _
  · exact within_sublist d.way d.place d.tag [] (d.place + 1) d.children he

theorem descendants_subset {d e : Element} (he : e ∈ d.subtree) : e.descendants ⊆ d.subtree :=
  fun _ hf => List.mem_cons_of_mem _ ((descendants_sublist he).subset hf)

theorem subtree_subset {d e : Element} (he : e ∈ d.subtree) : e.subtree ⊆ d.subtree :=
  List.cons_subset.mpr ⟨he, descendants_subset he⟩

theorem height_lt_of_mem_within (way : List Level) (place : Nat) (tag : Tag) (before : List Node) (next : Nat) :
    ∀ (ns : List Node) {f : Element}, f ∈ within way place tag before next ns → f.height < levels ns
  | [], _, hf => by
    rw [within] at hf
    cases hf
  | .text s :: ns, _, hf => by
    rw [within] at hf
    rw [levels]
    exact height_lt_of_mem_within way place tag (.text s :: before) next ns hf
  | .comment s :: ns, _, hf => by
    rw [within] at hf
    rw [levels]
    exact height_lt_of_mem_within way place tag (.comment s :: before) next ns hf
  | .element t cs :: ns, f, hf => by
    rw [within] at hf
    rw [levels]
    rcases List.mem_cons.mp hf with rfl | hf
    · exact Nat.lt_of_lt_of_le (Nat.lt_succ_self (levels cs)) (Nat.le_max_left _ _)
    · rcases List.mem_append.mp hf with hf | hf
      · have hinside := height_lt_of_mem_within _ next t [] (next + 1) cs hf
        omega
      · have hbehind := height_lt_of_mem_within way place tag _ _ ns hf
        omega

/-- An element is higher than those within it. -/
theorem height_lt {e f : Element} (hf : f ∈ e.descendants) : f.height < e.height :=
  height_lt_of_mem_within e.way e.place e.tag [] (e.place + 1) e.children hf

theorem height_le {e f : Element} (hf : f ∈ e.subtree) : f.height ≤ e.height := by
  rcases List.mem_cons.mp hf with rfl | hf
  · exact Nat.le_refl _
  · exact Nat.le_of_lt (height_lt hf)

/-- The way of an element among nodes goes through the element that holds them. -/
theorem holder_suffix (way : List Level) (place : Nat) (tag : Tag) (before : List Node) (next : Nat) :
    ∀ (ns : List Node) {f : Element}, f ∈ within way place tag before next ns →
      (holder way place tag before ns :: (holder way place tag before ns).ancestors) <:+ f.ancestors
  | [], _, hf => by
    rw [within] at hf
    cases hf
  | .text s :: ns, _, hf => by
    rw [within] at hf
    rw [← holder_cons]
    exact holder_suffix way place tag (.text s :: before) next ns hf
  | .comment s :: ns, _, hf => by
    rw [within] at hf
    rw [← holder_cons]
    exact holder_suffix way place tag (.comment s :: before) next ns hf
  | .element t cs :: ns, f, hf => by
    rw [within] at hf
    rcases List.mem_cons.mp hf with rfl | hf
    · exact List.suffix_rfl
    · rcases List.mem_append.mp hf with hf | hf
      · -- the way of the child goes on through its own holder
        have hinside := holder_suffix _ next t [] (next + 1) cs hf
        exact (List.suffix_cons _ _).trans hinside
      · rw [← holder_cons]
        exact holder_suffix way place tag _ _ ns hf

/-- An element has those that it lies within on its way. -/
theorem mem_ancestors {e f : Element} (hf : f ∈ e.descendants) : e ∈ f.ancestors :=
  (holder_suffix e.way e.place e.tag [] (e.place + 1) e.children hf).subset List.mem_cons_self

/-- An element in its place in a page: its way goes through elements of the page, and it lies within all of them. -/
def Seats (page f : Element) : Prop := ∀ e ∈ f.ancestors, e ∈ page.subtree ∧ f ∈ e.descendants

/-- Where the element that holds nodes is in its place, so are those among the nodes. -/
theorem seats_within (page : Element) (way : List Level) (place : Nat) (tag : Tag) (before : List Node) (next : Nat) :
    ∀ ns : List Node, within way place tag before next ns ⊆ (holder way place tag before ns).descendants →
      holder way place tag before ns ∈ page.subtree → page.Seats (holder way place tag before ns) →
      ∀ f ∈ within way place tag before next ns, page.Seats f
  | [], _, _, _, f, hf => by
    rw [within] at hf
    cases hf
  | .text s :: ns, hns, hmem, hseat, f, hf => by
    rw [within] at hf hns
    rw [← holder_cons] at hns hmem hseat
    exact seats_within page way place tag (.text s :: before) next ns hns hmem hseat f hf
  | .comment s :: ns, hns, hmem, hseat, f, hf => by
    rw [within] at hf hns
    rw [← holder_cons] at hns hmem hseat
    exact seats_within page way place tag (.comment s :: before) next ns hns hmem hseat f hf
  | .element t cs :: ns, hns, hmem, hseat, f, hf => by
    rw [within] at hf hns
    have hheld := hns List.mem_cons_self
    have hchild : Seats page ⟨next, t, cs, ⟨place, tag, before, ns⟩ :: way⟩ := by
      intro e he
      rw [ancestors_child] at he
      rcases List.mem_cons.mp he with rfl | he
      · exact ⟨hmem, hheld⟩
      · exact ⟨(hseat e he).1, (descendants_sublist (List.mem_cons_of_mem _ (hseat e he).2)).subset hheld⟩
    rcases List.mem_cons.mp hf with rfl | hf
    · exact hchild
    · rcases List.mem_append.mp hf with hf | hf
      · -- the child holds its own nodes
        have hmem := descendants_subset hmem hheld
        exact seats_within page _ next t [] (next + 1) cs (List.Subset.refl _) hmem hchild f hf
      · rw [← holder_cons] at hns hmem hseat
        refine seats_within page way place tag _ _ ns (fun g hg => hns ?_) hmem hseat f hf
        exact List.mem_cons_of_mem _ (List.mem_append_right _ hg)

end

/-! ## Pages -/

section
variable {nodes : List Node} {e f : Element}

/-- In a page all elements are in their places. -/
theorem seats (hf : f ∈ (document nodes).subtree) : (document nodes).Seats f := by
  have hpage : (document nodes).Seats (document nodes) := fun _ he => absurd he List.not_mem_nil
  rcases List.mem_cons.mp hf with rfl | hf
  · exact hpage
  · exact seats_within _ [] 0 ⟨documentName, []⟩ [] 1 nodes (List.Subset.refl _) List.mem_cons_self hpage f hf

/-- The page is the outermost element on each way. -/
theorem ancestors_getLastD (hf : f ∈ (document nodes).subtree) : f.ancestors.getLastD f = document nodes := by
  rcases List.mem_cons.mp hf with rfl | hf
  · rfl
  · obtain ⟨inner, hinner⟩ := holder_suffix [] 0 ⟨documentName, []⟩ [] 1 nodes hf
    have hlast : f.ancestors = inner ++ [document nodes] := hinner.symm
    rw [hlast, List.getLastD_eq_getLast?, List.getLast?_concat, Option.getD_some]

theorem places_document (nodes : List Node) :
    (document nodes).subtree.map (·.place) = List.range' 0 (countElements nodes + 1) := by
  rw [subtree, List.map_cons, places_descendants, List.range'_succ]
  rfl

/-- In a page a place has one element. -/
theorem eq_of_place (he : e ∈ (document nodes).subtree) (hf : f ∈ (document nodes).subtree) (h : e.place = f.place) :
    e = f := by
  have hnodup : ((document nodes).subtree.map (·.place)).Nodup := by
    rw [places_document]
    exact List.nodup_range'
  exact List.inj_on_of_nodup_map hnodup he hf h

/-- In a page, the elements within another are those that have the places behind its own, as many as it has elements. -/
theorem mem_descendants_iff_place (he : e ∈ (document nodes).subtree) (hf : f ∈ (document nodes).subtree) :
    f ∈ e.descendants ↔ e.place < f.place ∧ f.place ≤ e.place + countElements e.children := by
  have hrange : f.place ∈ e.descendants.map (·.place) ↔
      e.place < f.place ∧ f.place ≤ e.place + countElements e.children := by
    rw [places_descendants, List.mem_range'_1]
    omega
  rw [← hrange, List.mem_map]
  constructor
  · exact fun h => ⟨f, h, rfl⟩
  · rintro ⟨g, hg, hplace⟩
    exact eq_of_place (descendants_subset he hg) hf hplace ▸ hg

end
end Harvest.Markup.Element
