import Harvest.Proofs.Addition
import Harvest.Proofs.First
import Harvest.Proofs.Bound

/-
  Lists behind each other.

  The items of a list are worked through one after the other, each with what the page has, so two lists of items may as
  well be worked through behind each other: the members of the first come first, and the first fault of the two is that
  of both. It makes no difference how many items there are, or what hooks do with the mappings inside.
    1. `Schema.compile_append` — the items of two lists behind each other are those of both.
    2. `Meaning.items_append` — so are the values, whatever a hook puts in place of a mapping.
    3. `Extractor.result_append` — the calls. Each has a bound on expansions inside each other, which is that of the
       deeper list for both lists together, so the comparison goes over that bound (`Proofs.Bound`).
-/
namespace Harvest
open Markup

/-! ## Items -/

theorem depthOfItems_append {σ : Type} (is js : List (Item σ)) :
    depthOfItems (is ++ js) = max (depthOfItems is) (depthOfItems js) := by
  induction is with
  | nil => simp [depthOfItems]
  | cons i is ih =>
    match i with
    | .text e => rw [List.cons_append, depthOfItems, depthOfItems, ih]
    | .mapping (.mk root fs source) => rw [List.cons_append, depthOfItems, depthOfItems, ih, Nat.max_assoc]

namespace Schema
variable {xs ys : List Value} {is js : List (Item Entries)}

theorem compile_append (hxs : compile (.list xs) = .ok (.list is)) (hys : compile (.list ys) = .ok (.list js)) :
    compile (.list (xs ++ ys)) = .ok (.list (is ++ js)) :=
  compile_list_eq_ok.mpr (List.rel_append (compile_list_eq_ok.mp hxs) (compile_list_eq_ok.mp hys))

end Schema

/-- The third of three calls gives the members of the first list and then those of the second, or the first fault. -/
def Concatenated (r s t : Except Fault Value) : Prop :=
  ∃ us vs : Except Fault (List Value), r = us.map .list ∧ s = vs.map .list
    ∧ t = (do return (← us) ++ (← vs)).map .list

namespace Concatenated
variable {r s t : Except Fault Value}

theorem ok (h : Concatenated r s t) {w w' : Value} (hr : r = .ok w) (hs : s = .ok w') :
    ∃ us vs, w = .list us ∧ w' = .list vs ∧ t = .ok (.list (us ++ vs)) := by
  obtain ⟨p, q, rfl, rfl, rfl⟩ := h
  obtain ⟨us, rfl, rfl⟩ := map_eq_ok.mp hr
  obtain ⟨vs, rfl, rfl⟩ := map_eq_ok.mp hs
  exact ⟨us, vs, rfl, rfl, rfl⟩

theorem error (h : Concatenated r s t) {f : Fault} (hr : r = .error f) : t = .error f := by
  obtain ⟨p, q, rfl, rfl, rfl⟩ := h
  rw [map_eq_error.mp hr]
  rfl

end Concatenated

namespace Meaning
variable [Css.Library] {x : Engine} {expand : Expansion} {scope : Scope}

theorem items_append (is js : List (Item Entries)) :
    items x expand scope (is ++ js) = do
      let us ← items x expand scope is
      return us ++ (← items x expand scope js) := by
  induction is with
  | nil =>
    rw [List.nil_append, items, ok_bind]
    exact (bind_pure _).symm
  | cons i is ih => simp only [List.cons_append, items_cons, ih, bind_assoc, pure_bind, List.append_assoc]

/-- Under one bound on expansions, whatever it is. -/
theorem resolveWithin_append {xs ys : List Value} {is js : List (Item Entries)}
    (hxs : Schema.compile (.list xs) = .ok (.list is)) (hys : Schema.compile (.list ys) = .ok (.list js)) (n : Nat)
    (scope : Scope) :
    Concatenated (resolveWithin x n (.list xs) scope) (resolveWithin x n (.list ys) scope)
      (resolveWithin x n (.list (xs ++ ys)) scope) := by
  have hlist : ∀ {zs : List Value} {ks : List (Item Entries)}, Schema.compile (.list zs) = .ok (.list ks) →
      resolveWithin x n (.list zs) scope = (items x (expanding x n) scope ks).map .list := by
    intro zs ks hzs
    rw [resolveWithin, compile, hzs, ok_bind, value]
    cases items x (expanding x n) scope ks <;> rfl
  refine ⟨_, _, hlist hxs, hlist hys, ?_⟩
  rw [hlist (Schema.compile_append hxs hys), items_append]

/-! A call has the bound that the depth of its list gives it. For both lists that is the higher one of the two. -/

section
variable {xs ys : List Value} {is js : List (Item Entries)}

theorem resolve_list_within (hxs : Schema.compile (.list xs) = .ok (.list is)) (scope : Scope) :
    resolve x (.list xs) scope = resolveWithin x (depthOfItems is + Engine.deepest) (.list xs) scope := by
  rw [resolve_eq_within hxs, Schema.depth]

theorem resolve_list_cut (hxs : Schema.compile (.list xs) = .ok (.list is)) {n : Nat}
    (hn : depthOfItems is + Engine.deepest ≤ n) (scope : Scope) :
    Cut (resolveWithin x n (.list xs) scope) (resolve x (.list xs) scope) := by
  rw [resolve_list_within hxs]
  exact resolveWithin_cut x hn _ _

variable (hxs : Schema.compile (.list xs) = .ok (.list is)) (hys : Schema.compile (.list ys) = .ok (.list js))
include hxs hys

theorem resolve_append_within (scope : Scope) :
    resolve x (.list (xs ++ ys)) scope
      = resolveWithin x (max (depthOfItems is) (depthOfItems js) + Engine.deepest) (.list (xs ++ ys)) scope := by
  rw [resolve_list_within (Schema.compile_append hxs hys), depthOfItems_append]

theorem resolve_append_ok {w w' : Value} (hw : resolve x (.list xs) scope = .ok w)
    (hw' : resolve x (.list ys) scope = .ok w') :
    ∃ us vs, w = .list us ∧ w' = .list vs ∧ resolve x (.list (xs ++ ys)) scope = .ok (.list (us ++ vs)) := by
  let bound := max (depthOfItems is) (depthOfItems js) + Engine.deepest
  have hx : Cut (resolveWithin x bound (.list xs) scope) (.ok w) := hw ▸ resolve_list_cut hxs (by omega) scope
  have hy : Cut (resolveWithin x bound (.list ys) scope) (.ok w') := hw' ▸ resolve_list_cut hys (by omega) scope
  rw [resolve_append_within hxs hys]
  exact (resolveWithin_append hxs hys bound scope).ok hx.eq_ok hy.eq_ok

/-- The fault of the first list is that of both, unless it is the bound alone, and both lists have a higher one. -/
theorem resolve_append_error {f : Fault} (hf : resolve x (.list xs) scope = .error f) :
    resolve x (.list (xs ++ ys)) scope = .error f
      ∨ f = .depth ∧ depthOfItems is < depthOfItems js
        ∧ ∃ n, resolveWithin x n (.list xs) scope ≠ .error .depth := by
  let bound := max (depthOfItems is) (depthOfItems js) + Engine.deepest
  have hx : Cut (resolveWithin x bound (.list xs) scope) (.error f) := hf ▸ resolve_list_cut hxs (by omega) scope
  rw [resolve_append_within hxs hys]
  by_cases hfail : resolveWithin x bound (.list xs) scope = .error f
  · left
    exact (resolveWithin_append hxs hys bound scope).error hfail
  · right
    have hdepth : f = .depth := by
      by_contra hne
      exact hfail (hx.eq_error hne)
    subst hdepth
    refine ⟨rfl, ?_, bound, hfail⟩
    by_contra hle
    -- otherwise both lists have the bound of the first, and the first call would have ended as well
    have hbound : bound = depthOfItems is + Engine.deepest := by
      show max (depthOfItems is) (depthOfItems js) + Engine.deepest = _
      omega
    rw [hbound, ← resolve_list_within hxs] at hfail
    exact hfail hf

end
end Meaning

/-! ## Calls -/

/-- Lists of items concatenate, whatever the hooks and filters are. If two lists give values, both lists behind each
other give the members of the one and then those of the other. If the first fails, both behind each other fail with the
same fault. So it is under every bound on expansions inside each other that is common to the three. The bound of a call
grows with the depth of its schema: where that bound is the only fault of the first list, and the second list is deeper,
both lists may end. -/
theorem Extractor.result_append [Css.Library] (page : Element) (o : Options) (history : List Call) {xs ys : List Value}
    {is js : List (Item Entries)} (hxs : Schema.compile (.list xs) = .ok (.list is))
    (hys : Schema.compile (.list ys) = .ok (.list js)) (scope : Option Scope) :
    let x := (fresh page o).after history
    let within := fun n v => Meaning.resolveWithin o.engine n v (scope.getD (.of page))
    (∀ w w', x.result (.list xs) scope = .ok w → x.result (.list ys) scope = .ok w' →
        ∃ us vs, w = .list us ∧ w' = .list vs ∧ x.result (.list (xs ++ ys)) scope = .ok (.list (us ++ vs)))
      ∧ (∀ f, x.result (.list xs) scope = .error f →
        x.result (.list (xs ++ ys)) scope = .error f
          ∨ f = .depth ∧ depthOfItems is < depthOfItems js ∧ ∃ n, within n (.list xs) ≠ .error .depth)
      ∧ ∀ n, Concatenated (within n (.list xs)) (within n (.list ys)) (within n (.list (xs ++ ys))) := by
  intro x within
  simp only [x, result_after]
  refine ⟨fun w w' hw hw' => ?_, fun f hf => ?_, fun n => ?_⟩
  · exact Meaning.resolve_append_ok hxs hys hw hw'
  · exact Meaning.resolve_append_error hxs hys hf
  · exact Meaning.resolveWithin_append hxs hys n _

/-- The title of the sample page, and behind it the items that have one. -/
theorem Extractor.result_append_sample :
    let x := (fresh Sample.page Sample.options).after []
    x.result (.list [.text "b"]) none = .ok (.list [.text "x"])
      ∧ x.result (.list [.map Sample.titles]) none = .ok (.list [.ofRecord [("title", .text "x")]])
      ∧ x.result (.list [.text "b", .map Sample.titles]) none
        = .ok (.list [.text "x", .ofRecord [("title", .text "x")]]) := by
  intro x
  have htext : x.result (.list [.text "b"]) none = .ok (.list [.text "x"]) := by
    rw [result_after, Option.getD_none, Meaning.resolve_list_text, Sample.plural_title]
    rfl
  have htitles : x.result (.list [.map Sample.titles]) none = .ok (.list [.ofRecord [("title", .text "x")]]) :=
    Sample.result_titles
  have hxs : Schema.compile (.list [.text "b"]) = .ok (.list [.text "b"]) := rfl
  have hys : Schema.compile (.list [.map Sample.titles]) = .ok (.list [.mapping Sample.titled]) := rfl
  obtain ⟨us, vs, hus, hvs, happend⟩ := (result_append Sample.page Sample.options [] hxs hys none).1 _ _ htext htitles
  injection hus with hus
  injection hvs with hvs
  subst hus hvs
  exact ⟨htext, htitles, happend⟩

end Harvest
