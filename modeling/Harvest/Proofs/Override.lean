import Harvest.Options
import Harvest.Proofs.Fallible
import Harvest.Proofs.Field
import Harvest.Proofs.Lookup

/-
  Options with overrides on top of what a caller gives first.

  An option is checked on its own, on what stands under its name or else under its old name (`validate_eq_ok`), so it is
  enough to know where that comes from: from the overrides where they win, and else from what is given first
  (`pick_update`). They win under the name; under the old name they win only where the name is not given first, because
  both then stand side by side and the name is looked up before the old name.
    1. `build_overrides` — what an option is after overrides.
    2. `override_shadowed` — an override under an old name that is lost.
-/
namespace Harvest.Options

/-- The options. -/
inductive Choice where
  | filters
  | selectorPattern
  | filterSeparator
  | argumentSeparator
  | selectorHook
  | objectHook
  deriving DecidableEq

namespace Choice

/-- The name of an option. -/
def name : Choice → String
  | filters => "filters"
  | selectorPattern => "selector_pattern"
  | filterSeparator => "filter_separator"
  | argumentSeparator => "argument_separator"
  | selectorHook => "selector_hook"
  | objectHook => "object_hook"

/-- The name that an option had. -/
def oldName : Choice → Option String
  | filters | argumentSeparator => none
  | selectorPattern => some "rselector"
  | filterSeparator => some "rfilters"
  | selectorHook => some "selector_handler"
  | objectHook => some "object_handler"

/-- What settings give for an option, and under which name. -/
def pick? (c : Choice) (es : Settings) : Option (String × Setting) := Options.pick? es c.name c.oldName

/-- Whether an option is the same in both. -/
def Same : Choice → Options → Options → Prop
  | filters, o, p => o.dialect.filters = p.dialect.filters
  | selectorPattern, o, p => o.dialect.selectorPattern = p.dialect.selectorPattern
  | filterSeparator, o, p => o.dialect.filterSeparator = p.dialect.filterSeparator
  | argumentSeparator, o, p => o.dialect.argumentSeparator = p.dialect.argumentSeparator
  | selectorHook, o, p => o.queryHook = p.queryHook
  | objectHook, o, p => o.mappingHook = p.mappingHook

/-- Whether what is given for an option passes its check, with the value that it has in `o`. -/
def Accepts : Choice → Option (String × Setting) → Options → Prop
  | filters, g, o => checkFilters g = .ok o.dialect.filters
  | selectorPattern, g, o => checkSelectorPattern standardDialect.selectorPattern g = .ok (.ok o.dialect.selectorPattern)
  | filterSeparator, g, o => checkPattern standardDialect.filterSeparator g = .ok (.ok o.dialect.filterSeparator)
  | argumentSeparator, g, o => checkSeparator standardDialect.argumentSeparator g = .ok o.dialect.argumentSeparator
  | selectorHook, g, o => checkHook g = .ok o.queryHook
  | objectHook, g, o => checkHook g = .ok o.mappingHook

/-- Whether settings on top decide an option: they give it under its name, or under its old name where the name is not
given below. -/
def Wins (c : Choice) (below above : Settings) : Prop :=
  c.name ∈ above.map (·.1) ∨ (∃ old ∈ c.oldName, old ∈ above.map (·.1)) ∧ c.name ∉ below.map (·.1)

instance (c : Choice) (below above : Settings) : Decidable (c.Wins below above) := by
  unfold Wins
  infer_instance

theorem same_refl (c : Choice) (o : Options) : c.Same o o := by cases c <;> rfl

variable {c : Choice} {g : Option (String × Setting)} {o p : Options}

/-- A check gives one value. -/
theorem Accepts.same (ho : c.Accepts g o) (hp : c.Accepts g p) : c.Same o p := by
  cases c with
  | filters => exact Except.ok.inj (ho.symm.trans hp)
  | selectorPattern => exact Except.ok.inj (Except.ok.inj (ho.symm.trans hp))
  | filterSeparator => exact Except.ok.inj (Except.ok.inj (ho.symm.trans hp))
  | argumentSeparator => exact Except.ok.inj (ho.symm.trans hp)
  | selectorHook => exact Except.ok.inj (ho.symm.trans hp)
  | objectHook => exact Except.ok.inj (ho.symm.trans hp)

/-- A check looks at one option only. -/
theorem Accepts.of_same (ho : c.Accepts g o) (h : c.Same p o) : c.Accepts g p := by
  cases c with
  | filters => exact ho.trans (congrArg _ h.symm)
  | selectorPattern => exact ho.trans (congrArg (fun e => Except.ok (Except.ok e)) h.symm)
  | filterSeparator => exact ho.trans (congrArg (fun e => Except.ok (Except.ok e)) h.symm)
  | argumentSeparator => exact ho.trans (congrArg _ h.symm)
  | selectorHook => exact ho.trans (congrArg _ h.symm)
  | objectHook => exact ho.trans (congrArg _ h.symm)

/-- What is not given has its standard value. -/
theorem accepts_none (c : Choice) : c.Accepts none standard := by cases c <;> rfl

/-- Options that take each option from one of two. -/
theorem exists_same (W : Choice → Prop) [DecidablePred W] (o p : Options) :
    ∃ r, ∀ c : Choice, c.Same r (if W c then o else p) := by
  refine ⟨⟨⟨(if W .filters then o else p).dialect.filters, (if W .selectorPattern then o else p).dialect.selectorPattern,
    (if W .filterSeparator then o else p).dialect.filterSeparator,
    (if W .argumentSeparator then o else p).dialect.argumentSeparator⟩, (if W .selectorHook then o else p).queryHook,
    (if W .objectHook then o else p).mappingHook⟩, ?_⟩
  intro c
  cases c <;> rfl

end Choice

/-! ## Validation, option by option -/

/-- Settings are valid, and give certain options, when what they give for each option passes its check. -/
theorem validate_eq_ok {es : Settings} {o : Options} : validate es = .ok o ↔ ∀ c : Choice, c.Accepts (c.pick? es) o := by
  constructor
  · intro h
    obtain ⟨selector, hselector, hrest⟩ := bind_eq_ok.mp h
    obtain ⟨separator, hseparator, hchecked⟩ := bind_eq_ok.mp hrest
    dsimp only at hchecked
    split at hchecked
    · next hf ha hq hm =>
      cases hchecked
      intro c
      cases c with
      | filters => exact hf
      | selectorPattern => exact hselector
      | filterSeparator => exact hseparator
      | argumentSeparator => exact ha
      | selectorHook => exact hq
      | objectHook => exact hm
    · cases hchecked
  · intro h
    have hf : checkFilters (Options.pick? es "filters" none) = _ := h .filters
    have hp : checkSelectorPattern _ (Options.pick? es "selector_pattern" (some "rselector")) = _ := h .selectorPattern
    have hs : checkPattern _ (Options.pick? es "filter_separator" (some "rfilters")) = _ := h .filterSeparator
    have ha : checkSeparator _ (Options.pick? es "argument_separator" none) = _ := h .argumentSeparator
    have hq : checkHook (Options.pick? es "selector_hook" (some "selector_handler")) = _ := h .selectorHook
    have hm : checkHook (Options.pick? es "object_hook" (some "object_handler")) = _ := h .objectHook
    simp only [validate, hf, hp, hs, ha, hq, hm, ok_bind]
    rfl

/-- Settings that are about one option alone. -/
theorem validate_only {c : Choice} {es : Settings} {o : Options} (h : c.Accepts (c.pick? es) o)
    (hothers : ∀ c' ≠ c, c'.pick? es = none ∧ c'.Same o standard) : validate es = .ok o := by
  rw [validate_eq_ok]
  intro c'
  by_cases hc : c' = c
  · rw [hc]
    exact h
  · obtain ⟨hnone, hsame⟩ := hothers c' hc
    rw [hnone]
    exact c'.accepts_none.of_same hsame

theorem accepts_of_validate {es : Settings} {o : Options} (h : validate es = .ok o) (c : Choice) :
    c.Accepts (c.pick? es) o := validate_eq_ok.mp h c

/-- No settings at all give the standard options. -/
theorem validate_nil : validate [] = .ok standard := by
  rw [validate_eq_ok]
  intro c
  have hnone : c.pick? [] = none := by cases c <;> rfl
  rw [hnone]
  exact c.accepts_none

/-! ## Options made before -/

/-- Whether options came out of validation. -/
def Valid (o : Options) : Prop := ∃ es, validate es = .ok o

theorem valid_standard : Valid standard := ⟨[], validate_nil⟩

/-- Options made before give every option under its name. -/
theorem mem_toSettings (o : Options) (c : Choice) : c.name ∈ o.toSettings.map (·.1) := by
  have hkeys : o.toSettings.map (·.1) = ["filters", "selector_pattern", "filter_separator", "argument_separator",
    "selector_hook", "object_hook"] := rfl
  rw [hkeys]
  cases c <;> decide

theorem checkTable_filters (path : List String) (r : Registry) :
    checkTable path (r.map fun (k, f) => (k, .filter f)) = .ok r := by
  induction r with
  | nil => rfl
  | cons e r ih =>
    obtain ⟨k, f⟩ := e
    rw [List.map_cons]
    simp only [checkTable]
    rw [ih]

/-- A selector pattern that passed its check has two groups. -/
theorem two_le_groups {g : Option (String × Setting)} {e : Regex.Expression}
    (h : checkSelectorPattern standardDialect.selectorPattern g = .ok (.ok e)) : 2 ≤ e.groups := by
  obtain ⟨checked, hcheck, h⟩ := bind_eq_ok.mp h
  cases g with
  | none =>
    -- nothing is given, and the pattern is the standard one
    have hstandard : standardDialect.selectorPattern = e := by
      cases hcheck
      exact Except.ok.inj (Except.ok.inj h)
    rw [← hstandard, selectorPattern_eq]
    exact Nat.le_refl 2
  | some s =>
    cases checked with
    | error is => cases h
    | ok e' =>
      simp only at h
      split at h
      · cases h
      · next hgroups =>
        cases h
        omega

/-- A pattern with two groups passes the check. -/
theorem check_of_two_le_groups {standard e : Regex.Expression} {k : String} {s : Setting}
    (h : checkPattern standard (some (k, s)) = .ok (.ok e)) (hgroups : 2 ≤ e.groups) :
    checkSelectorPattern standard (some (k, s)) = .ok (.ok e) := by
  have hmany : ¬e.groups < 2 := Nat.not_lt.mpr hgroups
  rw [checkSelectorPattern, h, ok_bind]
  exact if_neg hmany

theorem ne_empty_of_check {g : Option (String × Setting)} {s : String}
    (h : checkSeparator standardDialect.argumentSeparator g = .ok s) : s.isEmpty = false := by
  unfold checkSeparator at h
  split at h
  · cases h
    rfl
  · split at h
    · cases h
    · next hs =>
      cases h
      simpa using hs
  · cases h

/-- Options made before are what their own settings give. -/
theorem Valid.validate_toSettings {o : Options} (ho : o.Valid) : validate o.toSettings = .ok o := by
  obtain ⟨es, hes⟩ := ho
  have hgroups : 2 ≤ o.dialect.selectorPattern.groups := two_le_groups (accepts_of_validate hes .selectorPattern)
  have hne : o.dialect.argumentSeparator.isEmpty = false := ne_empty_of_check (accepts_of_validate hes .argumentSeparator)
  rw [validate_eq_ok]
  intro c
  cases c with
  | filters => exact checkTable_filters ["filters"] o.dialect.filters
  | selectorPattern =>
    have hcheck : checkSelectorPattern standardDialect.selectorPattern
        (some ("selector_pattern", .pattern o.dialect.selectorPattern)) = .ok (.ok o.dialect.selectorPattern) :=
      check_of_two_le_groups rfl hgroups
    exact hcheck
  | filterSeparator => rfl
  | argumentSeparator =>
    have hcheck : checkSeparator standardDialect.argumentSeparator
        (some ("argument_separator", .plain (.text o.dialect.argumentSeparator))) = .ok o.dialect.argumentSeparator := by
      simp [checkSeparator, hne]
    exact hcheck
  | selectorHook =>
    have hcheck : ∀ k (h : Option Hook), checkHook (some (k, hookSetting h)) = .ok h := by
      intro k h
      cases h <;> rfl
    exact hcheck "selector_hook" o.queryHook
  | objectHook =>
    have hcheck : ∀ k (h : Option Hook), checkHook (some (k, hookSetting h)) = .ok h := by
      intro k h
      cases h <;> rfl
    exact hcheck "object_hook" o.mappingHook

/-- Whether what a caller gives first can be given: options made before came out of validation. -/
def Given.Valid : Given → Prop
  | .options o => o.Valid
  | _ => True

/-- Building is validation of all the settings. -/
theorem Given.Valid.build_eq {given : Given} (h : given.Valid) (above : Settings) :
    build given above = validate (update given.settings above) := by
  cases given with
  | nothing => cases above <;> rfl
  | table es => cases above <;> rfl
  | options o =>
    cases above with
    | nil => exact h.validate_toSettings.symm
    | cons e es => rfl

/-! ## Settings on top of others -/

theorem lookup_map_replace (es : Settings) (k : String) (s : Setting) (n : String) :
    (es.map fun (l, t) => (l, if l == k then s else t)).lookup n = (es.lookup n).map fun t => if n == k then s else t := by
  induction es with
  | nil => rfl
  | cons e es ih =>
    obtain ⟨l, t⟩ := e
    rw [List.map_cons]
    by_cases hl : n = l
    · rw [hl, List.lookup_cons_self, List.lookup_cons_self, Option.map_some]
    · rw [lookup_cons_of_ne hl, lookup_cons_of_ne hl, ih]

/-- One setting on top. -/
theorem lookup_update_one (below : Settings) (k : String) (s : Setting) (n : String) :
    (update below [(k, s)]).lookup n = if n = k then some s else below.lookup n := by
  have hany : below.any (·.1 == k) = true ↔ k ∈ below.map (·.1) := by simp
  simp only [update]
  by_cases hk : k ∈ below.map (·.1)
  · rw [if_pos (hany.mpr hk), lookup_map_replace]
    by_cases hn : n = k
    · subst hn
      obtain ⟨t, ht⟩ := Option.isSome_iff_exists.mp (lookup_isSome.mpr hk)
      simp [ht]
    · have hne : (n == k) = false := by simpa using hn
      simp [hn, hne]
  · rw [if_neg (fun h => hk (hany.mp h)), lookup_concat]
    by_cases hn : n = k
    · rw [if_pos hn, if_pos hn, hn, lookup_eq_none.mpr hk, Option.none_or]
    · rw [if_neg hn, if_neg hn, Option.or_none]

/-- Settings under distinct names stand on top of others, by induction on their number. -/
theorem lookup_update {above : Settings} (hab : (above.map (·.1)).Nodup) (below : Settings) (n : String) :
    (update below above).lookup n = (above.lookup n).or (below.lookup n) := by
  induction above generalizing below with
  | nil => rfl
  | cons e above ih =>
    obtain ⟨k, s⟩ := e
    rw [List.map_cons, List.nodup_cons] at hab
    have hstep : update below ((k, s) :: above) = update (update below [(k, s)]) above := rfl
    rw [hstep, ih hab.2, lookup_update_one]
    by_cases hn : n = k
    · rw [if_pos hn, hn, lookup_eq_none.mpr hab.1, List.lookup_cons_self, Option.none_or, Option.some_or]
    · rw [if_neg hn, lookup_cons_of_ne hn]

/-- Where settings on top win, they alone decide an option; elsewhere they do not count. -/
theorem pick_update {above : Settings} (hab : (above.map (·.1)).Nodup) (below : Settings) (c : Choice) :
    c.pick? (update below above) = if c.Wins below above then c.pick? above else c.pick? below := by
  simp only [Choice.pick?, Options.pick?, lookup_update hab]
  by_cases hname : c.name ∈ above.map (·.1)
  · -- given on top under its name
    obtain ⟨s, hs⟩ := Option.isSome_iff_exists.mp (lookup_isSome.mpr hname)
    have hwins : c.Wins below above := .inl hname
    rw [if_pos hwins]
    simp [hs]
  · have hnone := lookup_eq_none.mpr hname
    by_cases hbelow : c.name ∈ below.map (·.1)
    · -- given below under its name, which comes before an old name
      obtain ⟨s, hs⟩ := Option.isSome_iff_exists.mp (lookup_isSome.mpr hbelow)
      have hloses : ¬c.Wins below above := by
        rintro (h | ⟨-, h⟩)
        · exact hname h
        · exact h hbelow
      rw [if_neg hloses]
      simp [hnone, hs]
    · -- the name is given nowhere, so the old name decides
      have hbnone := lookup_eq_none.mpr hbelow
      cases hold : c.oldName with
      | none =>
        have hloses : ¬c.Wins below above := by
          rintro (h | ⟨⟨old, ho, -⟩, -⟩)
          · exact hname h
          · rw [hold] at ho
            cases ho
        rw [if_neg hloses]
        simp [hnone, hbnone]
      | some old =>
        by_cases hmem : old ∈ above.map (·.1)
        · obtain ⟨s, hs⟩ := Option.isSome_iff_exists.mp (lookup_isSome.mpr hmem)
          have hwins : c.Wins below above := .inr ⟨⟨old, hold, hmem⟩, hbelow⟩
          rw [if_pos hwins]
          simp [hnone, hbnone, hs]
        · have hloses : ¬c.Wins below above := by
            rintro (h | ⟨⟨old', ho, h⟩, -⟩)
            · exact hname h
            · rw [hold] at ho
              cases ho
              exact hmem h
          rw [if_neg hloses]
          simp [hnone, hbnone, lookup_eq_none.mpr hmem]

/-! ## Options after overrides -/

section
variable {given : Given} {above : Settings}

/-- Options after overrides are accepted one by one: each by the overrides where they win, and elsewhere without them. -/
theorem build_eq_ok_iff (hgiven : given.Valid) (hab : (above.map (·.1)).Nodup) {r : Options} :
    build given above = .ok r ↔ ∀ c : Choice,
      c.Accepts (if c.Wins given.settings above then c.pick? above else c.pick? given.settings) r := by
  rw [hgiven.build_eq, validate_eq_ok]
  exact forall_congr' fun c => by rw [pick_update hab]

theorem build_nil_eq_ok (hgiven : given.Valid) {b : Options} :
    build given [] = .ok b ↔ ∀ c : Choice, c.Accepts (c.pick? given.settings) b := by
  have hplain : build given [] = validate given.settings := hgiven.build_eq []
  rw [hplain, validate_eq_ok]

/-- Overrides that win nowhere change nothing. -/
theorem build_of_loses (hgiven : given.Valid) (hab : (above.map (·.1)).Nodup)
    (hloses : ∀ c : Choice, ¬c.Wins given.settings above) {r : Options} :
    build given above = .ok r ↔ build given [] = .ok r := by
  rw [build_eq_ok_iff hgiven hab, build_nil_eq_ok hgiven]
  exact forall_congr' fun c => by rw [if_neg (hloses c)]

/-- Overrides and settings that are valid, each for themselves, are so together. -/
theorem exists_build (hgiven : given.Valid) (hab : (above.map (·.1)).Nodup) {v b : Options}
    (hv : validate above = .ok v) (hb : build given [] = .ok b) : ∃ r, build given above = .ok r := by
  obtain ⟨r, hr⟩ := Choice.exists_same (fun c => c.Wins given.settings above) v b
  refine ⟨r, (build_eq_ok_iff hgiven hab).mpr ?_⟩
  intro c
  have hsame := hr c
  split at hsame
  · next hwins =>
    rw [if_pos hwins]
    exact (accepts_of_validate hv c).of_same hsame
  · next hloses =>
    rw [if_neg hloses]
    exact ((build_nil_eq_ok hgiven).mp hb c).of_same hsame

/-- Overrides that all win are valid by themselves where they are so on top of others. -/
theorem exists_validate (hgiven : given.Valid) (hab : (above.map (·.1)).Nodup)
    (hall : ∀ c : Choice, (c.pick? above).isSome → c.Wins given.settings above) {r : Options}
    (hr : build given above = .ok r) : ∃ v, validate above = .ok v := by
  obtain ⟨v, hv⟩ := Choice.exists_same (fun c => c.Wins given.settings above) r standard
  refine ⟨v, validate_eq_ok.mpr ?_⟩
  intro c
  have hsame := hv c
  have hc := (build_eq_ok_iff hgiven hab).mp hr c
  by_cases hwins : c.Wins given.settings above
  · rw [if_pos hwins] at hsame hc
    exact hc.of_same hsame
  · -- an override that does not win is none at all
    have hnone : c.pick? above = none := by
      rw [← Option.not_isSome_iff_eq_none]
      exact fun h => hwins (hall c h)
    rw [if_neg hwins] at hsame
    rw [hnone]
    exact c.accepts_none.of_same hsame

end

/-- After overrides, an option has the value that they alone give it where they win, and elsewhere the value that it has
without them. Building succeeds when both do, and overrides that all win are valid by themselves. -/
theorem build_overrides {given : Given} {above : Settings} (hgiven : given.Valid) (hab : (above.map (·.1)).Nodup) :
    (∀ r, build given above = .ok r → ∀ c : Choice,
      (c.Wins given.settings above → ∀ v, validate above = .ok v → c.Same r v) ∧
      (¬c.Wins given.settings above → ∀ b, build given [] = .ok b → c.Same r b)) ∧
    (∀ v b, validate above = .ok v → build given [] = .ok b → ∃ r, build given above = .ok r) ∧
    ((∀ c : Choice, (c.pick? above).isSome → c.Wins given.settings above) → ∀ r, build given above = .ok r →
      ∃ v, validate above = .ok v) := by
  refine ⟨?_, fun v b hv hb => exists_build hgiven hab hv hb, fun hall r hr => exists_validate hgiven hab hall hr⟩
  intro r hr c
  have hc := (build_eq_ok_iff hgiven hab).mp hr c
  constructor
  · intro hwins v hv
    rw [if_pos hwins] at hc
    exact hc.same (accepts_of_validate hv c)
  · intro hloses b hb
    rw [if_neg hloses] at hc
    exact hc.same ((build_nil_eq_ok hgiven).mp hb c)

theorem build_overrides_sample :
    (Given.table [("argument_separator", .plain (.text ","))]).Valid ∧
      ([("rfilters", Setting.pattern ⟨"%", .char '%' false, 0⟩)].map (·.1)).Nodup ∧
      ∃ r, build (.table [("argument_separator", .plain (.text ","))]) [("rfilters", .pattern ⟨"%", .char '%' false, 0⟩)]
        = .ok r ∧ r.dialect.filterSeparator.source = "%" ∧ r.dialect.argumentSeparator = "," := by
  have hgiven : (Given.table [("argument_separator", .plain (.text ","))]).Valid := trivial
  have hab : ([("rfilters", Setting.pattern ⟨"%", .char '%' false, 0⟩)].map (·.1)).Nodup := by decide
  have hv : validate [("rfilters", .pattern ⟨"%", .char '%' false, 0⟩)]
      = .ok { standard with dialect := { standardDialect with filterSeparator := ⟨"%", .char '%' false, 0⟩ } } := rfl
  have hb : build (.table [("argument_separator", .plain (.text ","))]) []
      = .ok { standard with dialect := { standardDialect with argumentSeparator := "," } } := rfl
  obtain ⟨hvalue, hexists, -⟩ := build_overrides hgiven hab
  obtain ⟨r, hr⟩ := hexists _ _ hv hb
  have hseparator := (hvalue r hr .filterSeparator).1 (by decide) _ hv
  have hargument := (hvalue r hr .argumentSeparator).2 (by decide) _ hb
  exact ⟨hgiven, hab, r, hr, congrArg Regex.Expression.source hseparator, hargument⟩

theorem read_atPattern : ∃ e, Regex.Expression.read atPattern = .ok e ∧ 2 ≤ e.groups ∧ e ≠ field := by
  have hread : (Regex.Expression.read atPattern).toOption.map (fun e => decide (2 ≤ e.groups ∧ e ≠ field)) = some true := by
    decide +kernel
  obtain ⟨e, he, hprops⟩ := Option.map_eq_some_iff.mp hread
  refine ⟨e, ?_, of_decide_eq_true hprops⟩
  cases h : Regex.Expression.read atPattern with
  | error f => simp [h, Except.toOption] at he
  | ok e' => simpa [h, Except.toOption] using he

/-- A selector pattern under its old name is an option by itself. -/
theorem exists_validate_pattern {t : String} {e : Regex.Expression} (hread : Regex.Expression.read t = .ok e)
    (hgroups : 2 ≤ e.groups) : ∃ v, validate [("rselector", .plain (.text t))] = .ok v ∧ v.dialect.selectorPattern = e := by
  -- the options that it gives: the standard ones, with the pattern
  obtain ⟨v, hsame⟩ := Choice.exists_same (· = .selectorPattern) ⟨⟨[], e, e, ":"⟩, none, none⟩ standard
  have hpattern : v.dialect.selectorPattern = e := hsame .selectorPattern
  have hcheck : checkSelectorPattern standardDialect.selectorPattern (some ("rselector", .plain (.text t)))
      = .ok (.ok e) := by
    refine check_of_two_le_groups ?_ hgroups
    simp only [checkPattern, hread]
  rw [← hpattern] at hcheck
  refine ⟨v, validate_only (c := .selectorPattern) hcheck fun c hc => ⟨?_, ?_⟩, hpattern⟩
  · cases c <;> simp [Choice.pick?, Options.pick?, Choice.name, Choice.oldName, List.lookup_cons] at hc ⊢
  · have hstandard := hsame c
    rwa [if_neg hc] at hstandard

/-- A selector pattern under its old name is lost on top of options made before, valid as it is. -/
theorem override_shadowed :
    (Given.options standard).Valid ∧ ∃ v r, validate [("rselector", .plain (.text atPattern))] = .ok v ∧
      build (.options standard) [("rselector", .plain (.text atPattern))] = .ok r ∧
      Choice.selectorPattern.Same r standard ∧ ¬Choice.selectorPattern.Same r v := by
  have hgiven : (Given.options standard).Valid := valid_standard
  obtain ⟨e, hread, hgroups, hne⟩ := read_atPattern
  obtain ⟨v, hv, hpattern⟩ := exists_validate_pattern hread hgroups
  have hloses : ∀ c : Choice,
      ¬c.Wins (Given.options standard).settings [("rselector", .plain (.text atPattern))] := by
    rintro c (h | ⟨-, h⟩)
    · cases c <;> simp [Choice.name] at h
    · exact h (mem_toSettings standard c)
  have hr : build (.options standard) [("rselector", .plain (.text atPattern))] = .ok standard :=
    (build_of_loses hgiven (by simp) hloses).mpr rfl
  refine ⟨hgiven, v, standard, hv, hr, Choice.same_refl _ _, ?_⟩
  intro h
  have hfield : standardDialect.selectorPattern = v.dialect.selectorPattern := h
  rw [selectorPattern_eq, hpattern] at hfield
  exact hne hfield.symm

end Harvest.Options
