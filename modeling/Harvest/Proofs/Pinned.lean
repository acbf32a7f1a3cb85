import Harvest.Proofs.Precedence

/-
  A configuration that is written in sections, and read back.

  Written in sections, a configuration gives all seven fields (`given_toEntries`), and what it gives for a field stands
  for what the field holds (`holds_written`). An indentation that is missing is given too, as absence. The format is
  always named, so that no deployment decides about it again.
    1. `validate_stack_pinned` — so as the highest layer it hides all others.
    2. `load_pinned` — by itself it is valid and gives the configuration again, and set by the caller it does so above
       whatever file and environment can be read.
-/
namespace Harvest.Config
open Value

variable {vars : Variables} {f : Field}

/-- What a field of a configuration is written as. -/
def Field.written (c : Config) : Field → Value
  | appName => .text c.appName
  | deployment => .text c.deployment.name
  | logLevel => .text c.logLevel.label
  | logFormat => .text c.logFormat.name
  | parser => .text c.parser
  | builtinFilters => .bool c.builtinFilters
  | indent => indentValue c.indent

/-- In sections every field is given, an indentation that is missing too. -/
theorem given_toEntries (c : Config) (f : Field) : given c.toEntries f = some (f.written c) := by cases f <;> rfl

theorem among_name (d : Deployment) : Coerce.among Deployment.names (.text d.name) = .ok d := by cases d <;> rfl

theorem among_label (l : Level) : Coerce.among Level.labels (.text l.label) = .ok l := by cases l <;> rfl

theorem optional_name (l : LogFormat) :
    Coerce.optional (Coerce.among LogFormat.names) (.text l.name) = .ok (some l) := by cases l <;> rfl

theorem indentation_indentValue (i : Option Nat) : indentation (indentValue i) = .ok i := by
  cases i with
  | none => rfl
  | some n =>
    have hpos : ¬(n : Int) < 0 := by omega
    simp [indentValue, indentation, Coerce.integer, hpos]

/-- A field is written as a value that stands for what it holds. -/
theorem holds_written (c : Config) (f : Field) : f.Holds (f.written c) c := by
  cases f with
  | appName => rfl
  | deployment => exact among_name c.deployment
  | logLevel => exact among_label c.logLevel
  | logFormat => exact ⟨some c.logFormat, optional_name c.logFormat, rfl⟩
  | parser => rfl
  | builtinFilters => rfl
  | indent => exact indentation_indentValue c.indent

/-! ## Layers -/

/-- By itself, what is written is valid, and gives the configuration again. -/
theorem validate_toEntries (c : Config) : validate c.toEntries = .ok c := by
  rw [validate_eq_ok]
  intro f
  rw [given_toEntries, Option.getD_some]
  exact holds_written c f

theorem highest_concat (layers : List Entries) (top : Entries) (f : Field) :
    highest (layers ++ [top]) f = (given top f).getD (highest layers f) := by
  rw [highest, List.foldl_append]
  rfl

theorem formed_toEntries (c : Config) : (Value.map c.toEntries).Formed := by
  have hindent : (indentValue c.indent).Formed := by
    cases c.indent with
    | none => exact .null
    | some n => exact .int n
  have hlogging : (table [("level", .text c.logLevel.label), ("format", .text c.logFormat.name)]).Formed :=
    .record (by simp) (by simp [Formed.text])
  have hextraction : (table [("parser", .text c.parser), ("builtin_filters", .bool c.builtinFilters)]).Formed :=
    .record (by simp) (by simp [Formed.text, Formed.bool])
  have houtput : (table [("indent", indentValue c.indent)]).Formed := .record (by simp) (by simp [hindent])
  have hrecord : Value.map c.toEntries = .ofRecord [("app_name", .text c.appName),
    ("environment", .text c.deployment.name),
    ("logging", table [("level", .text c.logLevel.label), ("format", .text c.logFormat.name)]),
    ("extraction", table [("parser", .text c.parser), ("builtin_filters", .bool c.builtinFilters)]),
    ("output", table [("indent", indentValue c.indent)])] := rfl
  rw [hrecord]
  exact .record (by simp) (by simp [Formed.text, hlogging, hextraction, houtput])

/-- Above any layers, what is written gives the configuration again. -/
theorem validate_stack_pinned (c : Config) {layers : List Entries} (hlayers : ∀ l ∈ layers, (Value.map l).Formed) :
    validate (stack (layers ++ [c.toEntries])) = .ok c := by
  have hformed : ∀ l ∈ layers ++ [c.toEntries], (Value.map l).Formed := by
    intro l hl
    rcases List.mem_append.mp hl with hl | hl
    · exact hlayers l hl
    · rw [List.mem_singleton.mp hl]
      exact formed_toEntries c
  rw [validate_stack_eq_ok hformed]
  intro f
  rw [highest_concat, given_toEntries, Option.getD_some]
  exact holds_written c f

/-! ## The environment -/

/-- What variables give for a field, if it can be read. -/
def readFrom? (vars : Variables) (f : Field) : Option Value :=
  (valueOf? vars f).bind fun text => (readVariable f text).toOption

theorem variableEntry_eq_ok {es : Entries} (h : variableEntry vars f = .ok es) :
    es = entriesOf (record (readFrom? vars) [f]) := by
  unfold variableEntry at h
  cases hvalue : valueOf? vars f with
  | none =>
    rw [hvalue] at h
    cases h
    simp [record, readFrom?, hvalue, entriesOf]
  | some text =>
    rw [hvalue] at h
    cases hread : readVariable f text with
    | error e =>
      simp only [hread] at h
      cases h
    | ok v =>
      simp only [hread] at h
      cases h
      simp [record, readFrom?, hvalue, hread, Except.toOption, entriesOf]

/-- The layer of variables that can all be read, by induction on the fields. -/
theorem gather_eq_ok {fs : List Field} {es : Entries} (h : gather (fs.map (variableEntry vars)) = .ok es) :
    es = entriesOf (record (readFrom? vars) fs) := by
  induction fs generalizing es with
  | nil =>
    cases h
    rfl
  | cons f fs ih =>
    simp only [List.map_cons, gather] at h
    split at h
    · next first more hfirst hmore =>
      cases h
      rw [variableEntry_eq_ok hfirst, ih hmore]
      simp only [record, entriesOf, ← List.map_append, ← List.filterMap_append, List.singleton_append]
    · cases h

theorem formed_ofVariables {es : Entries} (h : ofVariables vars = .ok es) : (Value.map es).Formed := by
  rw [gather_eq_ok h]
  refine Value.Formed.record (nodup_record _) ?_
  intro e he
  obtain ⟨f, -, v, hv, rfl⟩ := mem_record.mp he
  obtain ⟨text, -, hread⟩ := Option.bind_eq_some_iff.mp hv
  cases hok : readVariable f text with
  | error e =>
    rw [hok] at hread
    cases hread
  | ok w =>
    rw [hok] at hread
    cases hread
    exact formed_readVariable hok

/-! ## Loading -/

/-- The layers of a file and of an environment that can be read, below what the caller sets. -/
theorem layers_eq_ok [Yaml.Library] {s : Sources} {ls : List Entries} :
    layers s = .ok ls ↔ ∃ vars file env, s.environ = .ok vars ∧ s.fileLayer = .ok file ∧ ofVariables vars = .ok env ∧
      ls = [file, env, s.overrides] := by
  rw [layers_eq]
  constructor
  · intro h
    obtain ⟨vars, hvars, h⟩ := bind_eq_ok.mp h
    obtain ⟨file, hfile, h⟩ := bind_eq_ok.mp h
    obtain ⟨env, henv, h⟩ := bind_eq_ok.mp h
    exact ⟨vars, file, env, hvars, hfile, mapError_eq_ok.mp henv, (Except.ok.inj h).symm⟩
  · rintro ⟨vars, file, env, hvars, hfile, henv, rfl⟩
    rw [hvars, ok_bind, hfile, ok_bind, henv]
    rfl

/-- A configuration in sections is valid and gives the configuration again. Set by the caller it is what is loaded,
exactly when the variables are valid and the file is a mapping, whatever they hold besides. -/
theorem load_pinned [Yaml.Library] (hyaml : Yaml.Library.Forming) (c : Config) (s : Sources) :
    ofValue c.toValue = .ok c ∧
      (s.overrides = c.toEntries →
        (load s = .ok c ↔
          (∃ vars, s.environ = .ok vars ∧ ∃ env, ofVariables vars = .ok env) ∧ ∃ file, s.fileLayer = .ok file)) := by
  refine ⟨validate_toEntries c, fun hs => ⟨?_, ?_⟩⟩
  · intro h
    obtain ⟨ls, hls, -⟩ := bind_eq_ok.mp h
    obtain ⟨vars, file, env, hvars, hfile, henv, -⟩ := layers_eq_ok.mp hls
    exact ⟨⟨vars, hvars, env, henv⟩, file, hfile⟩
  · rintro ⟨⟨vars, hvars, env, henv⟩, file, hfile⟩
    have hlower : ∀ l ∈ [file, env], (Value.map l).Formed := by
      intro l hl
      simp only [List.mem_cons, List.not_mem_nil, or_false] at hl
      rcases hl with rfl | rfl
      · exact formed_fileLayer hyaml hfile
      · exact formed_ofVariables henv
    rw [load_eq hvars hfile henv, mapError_eq_ok, hs]
    exact validate_stack_pinned c hlower

/-- A configuration without an indentation, set by the caller, and variables for another one. -/
def pinnedSources : Sources where
  environment := [("XSELECT_ENVIRONMENT", "prod"), ("xselect_log_format", "json"), ("XSELECT_INDENT", "4")]
  overrides := toEntries ⟨"harvest", .test, .error, .console, "lxml", false, none⟩

theorem load_pinned_sample :
    ofVariables pinnedSources.environment
        = .ok [(.text "environment", .text "prod"), (.text "log_format", .text "json"), (.text "indent", .int 4)] ∧
      load pinnedSources = .ok ⟨"harvest", .test, .error, .console, "lxml", false, none⟩ := by
  have henv : ofVariables pinnedSources.environment
      = .ok [(.text "environment", .text "prod"), (.text "log_format", .text "json"), (.text "indent", .int 4)] := by
    rfl
  refine ⟨henv, ((load_pinned Yaml.forming _ pinnedSources).2 rfl).mpr ?_⟩
  exact ⟨⟨pinnedSources.environment, rfl, _, henv⟩, [], rfl⟩

end Harvest.Config
