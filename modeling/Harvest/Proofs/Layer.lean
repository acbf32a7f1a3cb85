import Harvest.Config.Layer
import Harvest.Proofs.Entries

/-
  What a field holds after layers are put on top of each other.

  Each field has a slot of its own in a layer that is written in sections (`slot`). Writing a layer in sections puts into
  the slot of a field just what the layer gives for it (`slot_sectioned`), and a layer on top fills the slots that it
  gives and leaves the others alone (`slot_merge`). So a slot of the whole holds what the highest layer gives that gives
  anything (`provided_stack`), but for mappings: two mappings in one slot are put together. No field is a mapping, so
  these are refused in any case.
-/
namespace Harvest.Config
open Value

/-! ## Slots -/

/-- What a layer gives for a field. -/
def given (es : Entries) (f : Field) : Option Value := (provided es f).map (·.2)

/-- What stands in the place of a field in a layer that is written in sections. -/
def slot (es : Entries) (f : Field) : Option Value :=
  match f.place? with
  | none => find? (.text f.flat) es
  | some (sec, name) => (block? es sec).bind (find? (.text name))

/-- A layer in sections: each section is a mapping, and a field that has a place in one does not stand on its own. -/
structure Sectional (es : Entries) : Prop where
  distinct : Distinct es
  block : ∀ sec ∈ sections, ∀ v, find? (.text sec) es = some v → ∃ b, v = .map b ∧ Distinct b
  flat : ∀ f : Field, f.place?.isSome → find? (.text f.flat) es = none

variable {es out target layer : Entries} {f g : Field} {sec name : String} {v : Value}

theorem given_eq (es : Entries) (f : Field) : given es f = (find? (.text f.flat) es).or (slot es f) := by
  unfold given provided slot
  cases find? (.text f.flat) es with
  | some v => rfl
  | none =>
    cases f.place? with
    | none => rfl
    | some p => simp [Option.map_map, Function.comp_def]

theorem Field.mem_sections (h : f.place? = some (sec, name)) : sec ∈ sections := by
  cases f <;> cases h <;> decide

theorem Field.flat_not_mem_sections (f : Field) : f.flat ∉ sections := by cases f <;> decide

theorem Field.flat_ne_section (f : Field) (h : sec ∈ sections) : f.flat ≠ sec := by
  rintro rfl
  exact f.flat_not_mem_sections h

theorem Field.mem_all (f : Field) : f ∈ Field.all := by cases f <;> decide

/-- No two fields have one place. -/
theorem Field.place_inj {p : String × String} (hf : f.place? = some p) (hg : g.place? = some p) : f = g := by
  cases f <;> cases g <;> first | rfl | exact absurd (hf.trans hg.symm) (by decide) | cases hf

theorem Field.flat_ne (h : f ≠ g) : f.flat ≠ g.flat := by
  intro he
  apply h
  cases f <;> cases g <;> first | rfl | exact absurd he (by decide)

theorem block?_eq_some {b : Entries} : block? es sec = some b ↔ find? (.text sec) es = some (.map b) := by
  unfold block?
  split
  · next b' h => rw [h]; simp
  · next h =>
    constructor
    · intro h'
      cases h'
    · intro h'
      exact absurd h' (h b)

theorem block?_put_self (sec : String) (b es : Entries) : block? (put (.text sec) (.map b) es) sec = some b :=
  block?_eq_some.mpr (find?_put_self sec _ es)

theorem block?_put_of_ne {k : String} (h : k ≠ sec) (v : Value) (es : Entries) :
    block? (put (.text k) v es) sec = block? es sec := by
  rw [block?, find?_put, if_neg h, block?]

theorem slot_eq (hf : f.place? = some (sec, name)) : slot es f = (block? es sec).bind (find? (.text name)) := by
  rw [slot, hf]

theorem putField_flat (hf : f.place? = none) (out : Entries) (v : Value) :
    putField out f v = put (.text f.flat) v out := by
  rw [putField, hf]

theorem putField_section (hf : f.place? = some (sec, name)) (out : Entries) (v : Value) :
    putField out f v = put (.text sec) (.map (put (.text name) v ((block? out sec).getD []))) out := by
  rw [putField, hf]

/-- A field that is put is found in its slot. -/
theorem slot_putField_self (out : Entries) (f : Field) (v : Value) : slot (putField out f v) f = some v := by
  cases hf : f.place? with
  | none =>
    rw [putField_flat hf, slot, hf]
    exact find?_put_self f.flat v out
  | some p =>
    obtain ⟨sec, name⟩ := p
    rw [putField_section hf, slot_eq hf, block?_put_self]
    exact find?_put_self name v _

/-- No other slot changes. -/
theorem slot_putField_of_ne (h : f ≠ g) (out : Entries) (v : Value) : slot (putField out f v) g = slot out g := by
  cases hf : f.place? with
  | none =>
    rw [putField_flat hf]
    cases hg : g.place? with
    | none =>
      rw [slot, slot, hg]
      exact find?_put_of_ne (by simpa using Field.flat_ne h) v out
    | some q =>
      obtain ⟨sec, name⟩ := q
      rw [slot_eq hg, slot_eq hg, block?_put_of_ne (f.flat_ne_section (Field.mem_sections hg))]
  | some p =>
    obtain ⟨sec, name⟩ := p
    rw [putField_section hf]
    cases hg : g.place? with
    | none =>
      have hsec : sec ≠ g.flat := (g.flat_ne_section (Field.mem_sections hf)).symm
      rw [slot, slot, hg]
      exact find?_put_of_ne (by simpa using hsec) _ out
    | some q =>
      obtain ⟨sec', name'⟩ := q
      rw [slot_eq hg, slot_eq hg]
      by_cases hsec : sec = sec'
      · -- both stand in one section, under different names
        subst hsec
        have hname : name ≠ name' := by
          rintro rfl
          exact h (Field.place_inj hf hg)
        rw [block?_put_self, Option.bind_some, find?_put, if_neg hname]
        cases block? out sec <;> rfl
      · rw [block?_put_of_ne hsec]

/-! ## A layer in sections -/

theorem slot_blocks (hes : Distinct es) (f : Field) :
    slot (blocks es) f = if f.place?.isSome then slot es f else none := by
  cases hf : f.place? with
  | none =>
    rw [slot, hf]
    simp only [blocks, find?_filter hes]
    cases find? (.text f.flat) es with
    | none => rfl
    | some v => cases v <;> simp [f.flat_not_mem_sections]
  | some p =>
    obtain ⟨sec, name⟩ := p
    have hblock : block? (blocks es) sec = block? es sec := by
      simp only [block?, blocks, find?_filter hes]
      cases find? (.text sec) es with
      | none => rfl
      | some v => cases v <;> simp [Option.filter, Field.mem_sections hf]
    rw [slot_eq hf, slot_eq hf, hblock]
    rfl

/-- Fields put one after the other. -/
def putGiven (es : Entries) (fs : List Field) (out : Entries) : Entries :=
  fs.foldl (fun out f =>
    match find? (.text f.flat) es with
    | some v => putField out f v
    | none => out) out

theorem slot_putGiven (es : Entries) (fs : List Field) (out : Entries) (f : Field) :
    slot (putGiven es fs out) f = if f ∈ fs then (find? (.text f.flat) es).or (slot out f) else slot out f := by
  induction fs generalizing out with
  | nil => simp [putGiven]
  | cons g fs ih =>
    have hstep : putGiven es (g :: fs) out = putGiven es fs (putGiven es [g] out) := rfl
    have hone : slot (putGiven es [g] out) f = if f = g then (find? (.text f.flat) es).or (slot out f) else slot out f := by
      simp only [putGiven, List.foldl_cons, List.foldl_nil]
      by_cases hfg : f = g
      · subst hfg
        cases find? (.text f.flat) es with
        | none => simp
        | some v => simp [slot_putField_self]
      · cases find? (.text g.flat) es with
        | none => simp [hfg]
        | some v => simp [slot_putField_of_ne (Ne.symm hfg), hfg]
    rw [hstep, ih, hone]
    by_cases hfg : f = g
    · subst hfg
      cases find? (.text f.flat) es <;> simp
    · simp [hfg]

/-- In sections, the slot of a field holds what the layer gives for it. -/
theorem slot_sectioned (hes : Distinct es) (f : Field) : slot (sectioned es) f = given es f := by
  have hput : slot (sectioned es) f = _ := slot_putGiven es Field.all (blocks es) f
  rw [hput, if_pos f.mem_all, slot_blocks hes, given_eq]
  cases hf : f.place? with
  | none =>
    rw [slot, hf]
    cases find? (.text f.flat) es <;> rfl
  | some p => rfl

/-- What a section holds has different keys. -/
theorem Sectional.distinct_block (h : Sectional out) (hsec : sec ∈ sections) : Distinct ((block? out sec).getD []) := by
  cases hb : block? out sec with
  | none => exact List.Pairwise.nil
  | some b =>
    obtain ⟨b', hb', hdistinct⟩ := h.block sec hsec _ (block?_eq_some.mp hb)
    cases hb'
    exact hdistinct

theorem sectional_putField (h : Sectional out) (f : Field) (v : Value) : Sectional (putField out f v) := by
  cases hf : f.place? with
  | none =>
    rw [putField_flat hf]
    refine ⟨distinct_put h.distinct _ _, ?_, ?_⟩
    · intro sec hsec w hw
      rw [find?_put, if_neg (f.flat_ne_section hsec)] at hw
      exact h.block sec hsec w hw
    · intro g hg
      have hne : f ≠ g := by
        rintro rfl
        rw [hf] at hg
        cases hg
      rw [find?_put, if_neg (Field.flat_ne hne)]
      exact h.flat g hg
  | some p =>
    obtain ⟨sec, name⟩ := p
    rw [putField_section hf]
    refine ⟨distinct_put h.distinct _ _, ?_, ?_⟩
    · intro sec' hsec' w hw
      rw [find?_put] at hw
      split at hw
      · cases hw
        exact ⟨_, rfl, distinct_put (h.distinct_block (Field.mem_sections hf)) _ _⟩
      · exact h.block sec' hsec' w hw
    · intro g hg
      have hne : sec ≠ g.flat := (g.flat_ne_section (Field.mem_sections hf)).symm
      rw [find?_put, if_neg hne]
      exact h.flat g hg

theorem sectional_putGiven (fs : List Field) (h : Sectional out) : Sectional (putGiven es fs out) := by
  induction fs generalizing out with
  | nil => exact h
  | cons g fs ih =>
    have hone : Sectional (putGiven es [g] out) := by
      simp only [putGiven, List.foldl_cons, List.foldl_nil]
      split
      · exact sectional_putField h _ _
      · exact h
    exact ih hone

theorem sectional_blocks (hes : (Value.map es).Formed) : Sectional (blocks es) := by
  refine ⟨hes.distinct.sublist List.filter_sublist, ?_, ?_⟩
  · intro sec _ v hv
    rw [blocks, find?_filter hes.distinct, Option.filter_eq_some_iff] at hv
    obtain ⟨hfound, hkept⟩ := hv
    cases v with
    | map b => exact ⟨b, rfl, (hes.find? hfound).distinct⟩
    | _ => simp at hkept
  · intro f _
    rw [blocks, find?_filter hes.distinct]
    cases find? (.text f.flat) es with
    | none => rfl
    | some v => cases v <;> simp [f.flat_not_mem_sections]

theorem sectional_sectioned (hes : (Value.map es).Formed) : Sectional (sectioned es) :=
  sectional_putGiven Field.all (sectional_blocks hes)

/-! ## A layer on top of another -/

/-- Under a key stands what the layer on top has there, put on what stood there before. -/
theorem find?_merge (hlayer : Distinct layer) (k : String) (target : Entries) :
    find? (.text k) (merge target layer) =
      match find? (.text k) layer with
      | some v => some (mergeValue (find? (.text k) target) v)
      | none => find? (.text k) target := by
  induction layer generalizing target with
  | nil => rw [merge, find?]
  | cons e layer ih =>
    obtain ⟨l, v⟩ := e
    have htail : Distinct layer := (List.pairwise_cons.mp hlayer).2
    rw [merge, ih htail]
    by_cases hl : l = .text k
    · subst hl
      rw [find?_eq_none_of_distinct hlayer, find?_cons_self, find?_put_self]
    · rw [find?_cons_of_ne hl, find?_put_of_ne hl]

theorem distinct_merge (htarget : Distinct target) (layer : Entries) : Distinct (merge target layer) := by
  induction layer generalizing target with
  | nil =>
    rw [merge]
    exact htarget
  | cons e layer ih =>
    rw [merge]
    exact ih (distinct_put htarget _ _)

theorem mergeValue_none (v : Value) : mergeValue none v = v := by cases v <;> simp [mergeValue]

/-- Two values are one, or both are mappings. -/
def Alike (v w : Value) : Prop := v = w ∨ ∃ a b, v = .map a ∧ w = .map b

theorem alike_mergeValue (current : Option Value) (v : Value) : Alike (mergeValue current v) v := by
  cases v with
  | map l =>
    right
    unfold mergeValue
    split
    · exact ⟨_, l, rfl, rfl⟩
    · exact ⟨l, l, rfl, rfl⟩
  | _ =>
    left
    rw [mergeValue]
    simp

/-- A layer on top fills the slots that it gives, and leaves the others. -/
theorem slot_merge (htarget : Sectional target) (hlayer : Sectional layer) (f : Field) :
    slot (merge target layer) f =
      match slot layer f with
      | some v => some (mergeValue (slot target f) v)
      | none => slot target f := by
  cases hf : f.place? with
  | none =>
    simp only [slot, hf]
    exact find?_merge hlayer.distinct f.flat target
  | some p =>
    obtain ⟨sec, name⟩ := p
    have hsec := Field.mem_sections hf
    simp only [slot_eq hf]
    have hfound := find?_merge hlayer.distinct sec target
    cases hl : find? (.text sec) layer with
    | none =>
      -- the layer has no such section
      have hnone : block? layer sec = none := by rw [block?, hl]
      rw [hl] at hfound
      have hsame : block? (merge target layer) sec = block? target sec := by rw [block?, hfound, block?]
      rw [hnone, hsame]
      rfl
    | some w =>
      obtain ⟨b, rfl, hb⟩ := hlayer.block sec hsec w hl
      rw [hl] at hfound
      rw [block?_eq_some.mpr hl, Option.bind_some]
      cases ht : find? (.text sec) target with
      | none =>
        have hnone : block? target sec = none := by rw [block?, ht]
        simp only [ht, mergeValue_none] at hfound
        rw [block?_eq_some.mpr hfound, hnone]
        simp only [Option.bind_some, Option.bind_none, mergeValue_none]
        cases find? (.text name) b <;> rfl
      | some u =>
        obtain ⟨t, rfl, -⟩ := htarget.block sec hsec u ht
        simp only [ht, mergeValue] at hfound
        rw [block?_eq_some.mpr hfound, block?_eq_some.mpr ht]
        exact find?_merge hb name t

theorem sectional_merge (htarget : Sectional target) (hlayer : Sectional layer) : Sectional (merge target layer) := by
  refine ⟨distinct_merge htarget.distinct layer, ?_, ?_⟩
  · intro sec hsec v hv
    rw [find?_merge hlayer.distinct] at hv
    cases hl : find? (.text sec) layer with
    | none =>
      rw [hl] at hv
      exact htarget.block sec hsec v hv
    | some w =>
      obtain ⟨b, rfl, hb⟩ := hlayer.block sec hsec w hl
      rw [hl] at hv
      cases hv
      cases ht : find? (.text sec) target with
      | none => exact ⟨b, mergeValue_none _, hb⟩
      | some u =>
        obtain ⟨t, rfl, hd⟩ := htarget.block sec hsec u ht
        exact ⟨merge t b, by rw [mergeValue], distinct_merge hd b⟩
  · intro f hf
    rw [find?_merge hlayer.distinct, hlayer.flat f hf]
    exact htarget.flat f hf

/-! ## All layers -/

/-- What a field is where no layer gives it. -/
def Field.standard : Field → Value
  | .appName => .text "xselect"
  | .deployment => .text "dev"
  | .logLevel => .text "INFO"
  | .logFormat => .null
  | .parser => .text "lxml"
  | .builtinFilters => .bool true
  | .indent => .int 2

theorem given_defaults (f : Field) : given defaults f = some f.standard := by cases f <;> rfl

theorem formed_defaults : (Value.map defaults).Formed := by
  have hlogging : (table [("level", .text "INFO"), ("format", .null)]).Formed :=
    .record (by decide) (by simp [Formed.text, Formed.null])
  have hextraction : (table [("parser", .text "lxml"), ("builtin_filters", .bool true)]).Formed :=
    .record (by decide) (by simp [Formed.text, Formed.bool])
  have houtput : (table [("indent", .int 2)]).Formed := .record (by decide) (by simp [Formed.int])
  have hrecord : Value.map defaults = .ofRecord [("app_name", .text "xselect"), ("environment", .text "dev"),
    ("logging", table [("level", .text "INFO"), ("format", .null)]),
    ("extraction", table [("parser", .text "lxml"), ("builtin_filters", .bool true)]),
    ("output", table [("indent", .int 2)])] := rfl
  rw [hrecord]
  exact .record (by decide) (by simp [Formed.text, hlogging, hextraction, houtput])

/-- What the highest of some layers gives for a field, where any of them does. -/
def highest (layers : List Entries) (f : Field) : Value := layers.foldl (fun v l => (given l f).getD v) f.standard

theorem alike_refl (v : Value) : Alike v v := .inl rfl

theorem Alike.trans {u v w : Value} (huv : Alike u v) (hvw : Alike v w) : Alike u w := by
  rcases huv with rfl | ⟨a, b, rfl, rfl⟩
  · exact hvw
  · rcases hvw with rfl | ⟨c, d, hc, rfl⟩
    · exact .inr ⟨a, b, rfl, rfl⟩
    · exact .inr ⟨a, d, rfl, rfl⟩

/-- Layers on top of one that is in sections, by induction on their number. -/
theorem slot_foldl {layers : List Entries} (hlayers : ∀ l ∈ layers, (Value.map l).Formed) (f : Field) :
    ∀ (out : Entries) (v w : Value), Sectional out → slot out f = some w → Alike w v →
      Sectional (layers.foldl (fun out l => merge out (sectioned l)) out) ∧
      ∃ u, slot (layers.foldl (fun out l => merge out (sectioned l)) out) f = some u ∧
        Alike u (layers.foldl (fun v l => (given l f).getD v) v) := by
  induction layers with
  | nil => exact fun out v w hout hw hv => ⟨hout, w, hw, hv⟩
  | cons l layers ih =>
    intro out v w hout hw hv
    obtain ⟨hl, hrest⟩ := List.forall_mem_cons.mp hlayers
    have hsectional := sectional_sectioned hl
    have hslot := slot_merge hout hsectional f
    rw [slot_sectioned hl.distinct, hw] at hslot
    rw [List.foldl_cons, List.foldl_cons]
    cases hg : given l f with
    | none =>
      -- the slot keeps what the layers below gave
      rw [hg] at hslot
      exact ih hrest _ v w (sectional_merge hout hsectional) hslot hv
    | some x =>
      -- the slot holds the value given, or two mappings put together
      rw [hg] at hslot
      exact ih hrest _ x _ (sectional_merge hout hsectional) hslot (alike_mergeValue _ x)

/-- The whole gives for each field what the highest layer gives that gives it; at most, mappings are put together. -/
theorem provided_stack {layers : List Entries} (hlayers : ∀ l ∈ layers, (Value.map l).Formed) (f : Field) :
    ∃ path u, provided (stack layers) f = some (path, u) ∧ Alike u (highest layers f) := by
  have hdefaults : slot (sectioned defaults) f = some f.standard := by
    rw [slot_sectioned formed_defaults.distinct, given_defaults]
  obtain ⟨hsectional, u, hu, halike⟩ :=
    slot_foldl hlayers f _ f.standard f.standard (sectional_sectioned formed_defaults) hdefaults (alike_refl _)
  have hgiven : given (stack layers) f = some u := by
    rw [given_eq]
    cases hf : f.place? with
    | none =>
      have hflat : find? (.text f.flat) (stack layers) = some u := by
        rw [← hu, slot, hf]
        rfl
      rw [hflat, Option.some_or]
    | some p =>
      have hnone : find? (.text f.flat) (stack layers) = none := hsectional.flat f (by rw [hf]; rfl)
      rw [hnone, Option.none_or]
      exact hu
  obtain ⟨⟨path, w⟩, hprovided, hw⟩ := Option.map_eq_some_iff.mp hgiven
  cases hw
  exact ⟨path, w, hprovided, halike⟩

end Harvest.Config
