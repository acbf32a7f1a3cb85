import Harvest.Proofs.Loaded
import Harvest.Proofs.Variables

/-
  Which value of which layer a configuration has.

  Fields are checked one by one, each on what the whole of the layers gives for it (`validate_eq_ok`), and that is what
  the highest layer gives that gives anything: the caller before the environment, this before the file, and this before
  what holds by default. What lower layers give, valid or not, and sections that are no mappings do not count.
    1. `load_topmost` — when a configuration is loaded, and which.
-/
namespace Harvest.Config

/-! ## Fields and their checks -/

/-- Whether a configuration has what a value for a field stands for. A format that is absent follows the deployment. -/
def Field.Holds : Field → Value → Config → Prop
  | .appName, v, c => Coerce.text v = .ok c.appName
  | .deployment, v, c => Coerce.among Deployment.names v = .ok c.deployment
  | .logLevel, v, c => Coerce.among Level.labels v = .ok c.logLevel
  | .logFormat, v, c => ∃ format, Coerce.optional (Coerce.among LogFormat.names) v = .ok format ∧
      c.logFormat = format.getD (if c.deployment = .prod then .json else .console)
  | .parser, v, c => Coerce.text v = .ok c.parser
  | .builtinFilters, v, c => Coerce.truth v = .ok c.builtinFilters
  | .indent, v, c => indentation v = .ok c.indent

/-- Whether a value for a field passes its check. -/
def Field.Passes : Field → Value → Prop
  | .appName, v | .parser, v => ∃ s, Coerce.text v = .ok s
  | .deployment, v => ∃ d, Coerce.among Deployment.names v = .ok d
  | .logLevel, v => ∃ l, Coerce.among Level.labels v = .ok l
  | .logFormat, v => ∃ format, Coerce.optional (Coerce.among LogFormat.names) v = .ok format
  | .builtinFilters, v => ∃ b, Coerce.truth v = .ok b
  | .indent, v => ∃ i, indentation v = .ok i

variable {f : Field} {v w : Value} {c : Config}

theorem Field.Holds.passes (h : f.Holds v c) : f.Passes v := by
  cases f with
  | logFormat =>
    obtain ⟨format, hformat, -⟩ := h
    exact ⟨format, hformat⟩
  | _ => exact ⟨_, h⟩

/-- Values that all pass their checks make a configuration. -/
theorem exists_holds {u : Field → Value} (h : ∀ f : Field, f.Passes (u f)) : ∃ c, ∀ f : Field, f.Holds (u f) c := by
  obtain ⟨appName, happName⟩ := h .appName
  obtain ⟨deployment, hdeployment⟩ := h .deployment
  obtain ⟨logLevel, hlogLevel⟩ := h .logLevel
  obtain ⟨format, hformat⟩ := h .logFormat
  obtain ⟨parser, hparser⟩ := h .parser
  obtain ⟨builtinFilters, hbuiltinFilters⟩ := h .builtinFilters
  obtain ⟨indent, hindent⟩ := h .indent
  refine ⟨⟨appName, deployment, logLevel, format.getD (if deployment = .prod then .json else .console), parser,
    builtinFilters, indent⟩, ?_⟩
  intro f
  cases f with
  | appName => exact happName
  | deployment => exact hdeployment
  | logLevel => exact hlogLevel
  | logFormat => exact ⟨format, hformat, rfl⟩
  | parser => exact hparser
  | builtinFilters => exact hbuiltinFilters
  | indent => exact hindent

/-- No field is a mapping. -/
theorem not_passes_map (f : Field) (es : Entries) : ¬f.Passes (.map es) := by
  intro h
  cases f <;> obtain ⟨a, ha⟩ := h <;> cases ha

theorem Alike.holds_iff (h : Alike v w) (f : Field) (c : Config) : f.Holds v c ↔ f.Holds w c := by
  rcases h with rfl | ⟨a, b, rfl, rfl⟩
  · exact Iff.rfl
  · exact ⟨fun h => absurd h.passes (not_passes_map f a), fun h => absurd h.passes (not_passes_map f b)⟩

/-- A field that is not given is checked as if its standard value were given. -/
theorem check_eq_ok {α : Type} {standard a : α} {read : Coerce.Reader α} (hstandard : read v = .ok standard)
    (given? : Option (List String × Value)) :
    check standard read given? = .ok a ↔ read ((given?.map (·.2)).getD v) = .ok a := by
  cases given? with
  | none => simp [check, hstandard]
  | some g =>
    obtain ⟨path, w⟩ := g
    simp only [check, Option.map_some, Option.getD_some]
    cases read w with
    | ok b => simp
    | error e => simp [Checked.fail]

theorem Deployment.format_eq (d : Deployment) : d.format = if d = .prod then .json else .console := by cases d <;> rfl

/-- Entries are valid, and give a certain configuration, when that has the value of each field that they give, and the
standard value of each other. -/
theorem validate_eq_ok {es : Entries} :
    validate es = .ok c ↔ ∀ f : Field, f.Holds ((given es f).getD f.standard) c := by
  -- all fields are checked before any fault counts, so the seven checks are read off together
  unfold validate
  dsimp only
  constructor
  · intro hok
    split at hok
    · next a d l format p b i ha hd hl hf hp hb hi =>
      cases hok
      intro f
      cases f with
      | appName => exact (check_eq_ok (by rfl) _).mp ha
      | deployment => exact (check_eq_ok (by rfl) _).mp hd
      | logLevel => exact (check_eq_ok (by rfl) _).mp hl
      | logFormat => exact ⟨format, (check_eq_ok (by rfl) _).mp hf, by rw [Deployment.format_eq]⟩
      | parser => exact (check_eq_ok (by rfl) _).mp hp
      | builtinFilters => exact (check_eq_ok (by rfl) _).mp hb
      | indent => exact (check_eq_ok (by rfl) _).mp hi
    · cases hok
  · intro hall
    obtain ⟨format, hf, hformat⟩ := hall .logFormat
    rw [(check_eq_ok (by rfl) _).mpr (hall .appName), (check_eq_ok (by rfl) _).mpr (hall .deployment),
      (check_eq_ok (by rfl) _).mpr (hall .logLevel), (check_eq_ok (by rfl) _).mpr hf,
      (check_eq_ok (by rfl) _).mpr (hall .parser), (check_eq_ok (by rfl) _).mpr (hall .builtinFilters),
      (check_eq_ok (by rfl) _).mpr (hall .indent)]
    simp only [Deployment.format_eq, ← hformat]

/-- Layers on top of each other are valid, and give a certain configuration, when that has the value that the highest of
them gives for each field. -/
theorem validate_stack_eq_ok {layers : List Entries} (hlayers : ∀ l ∈ layers, (Value.map l).Formed) :
    validate (stack layers) = .ok c ↔ ∀ f : Field, f.Holds (highest layers f) c := by
  rw [validate_eq_ok]
  apply forall_congr'
  intro f
  obtain ⟨path, u, hprovided, halike⟩ := provided_stack hlayers f
  have hgiven : given (stack layers) f = some u := by rw [given, hprovided, Option.map_some]
  rw [hgiven, Option.getD_some]
  exact halike.holds_iff f c

/-! ## Loading -/

namespace Sources
variable [Yaml.Library] (s : Sources)

/-- The layer of the file. -/
def fileLayer : Except Fault Entries :=
  match s.config? with
  | none => pure []
  | some p => ofFile s.files p

end Sources

section
variable [Yaml.Library] (hyaml : Yaml.Library.Forming)
include hyaml

theorem formed_ofFile {fs : Files} {p : Path} {es : Entries} (h : ofFile fs p = .ok es) : (Value.map es).Formed := by
  obtain ⟨-, -, h⟩ := bind_eq_ok.mp h
  obtain ⟨text, -, h⟩ := bind_eq_ok.mp h
  obtain ⟨v, hv, h⟩ := bind_eq_ok.mp h
  have hformed := hyaml _ _ (mapError_eq_ok.mp hv)
  cases v with
  | null =>
    cases h
    exact .map List.Pairwise.nil (by simp)
  | map es =>
    cases h
    exact hformed
  | _ => cases h

theorem formed_fileLayer {s : Sources} {file : Entries} (h : s.fileLayer = .ok file) : (Value.map file).Formed := by
  unfold Sources.fileLayer at h
  split at h
  · cases h
    exact .map List.Pairwise.nil (by simp)
  · exact formed_ofFile hyaml h

end

section
variable [Yaml.Library]

theorem layers_eq (s : Sources) : layers s = do
    let vars ← s.environ
    let file ← s.fileLayer
    let env ← (ofVariables vars).mapError .environment
    return [file, env, s.overrides] := by
  unfold layers Sources.environ Sources.fileLayer
  cases s.dotenv? <;> cases s.config? <;> rfl

/-- Loading is validation of the layers, on top of each other. -/
theorem load_eq {s : Sources} {vars : Environment} {file layer : Entries} (hvars : s.environ = .ok vars)
    (hfile : s.fileLayer = .ok file) (hlayer : ofVariables vars = .ok layer) :
    load s = (validate (stack [file, layer, s.overrides])).mapError .invalid := by
  have hlayers : layers s = .ok [file, layer, s.overrides] := by
    rw [layers_eq, hvars, ok_bind, hfile, ok_bind, hlayer]
    rfl
  rw [load, hlayers, ok_bind]

end

/-- The value for a field of the highest layer that gives one: the caller, the environment, the file, the defaults. -/
def topmost (cli : Entries) (env : Field → Option Value) (file : Entries) (f : Field) : Value :=
  (((given cli f).or (env f)).or (given file f)).getD f.standard

theorem highest_eq_topmost {layer : Entries} {env : Field → Option Value} (h : ∀ f, given layer f = env f)
    (cli file : Entries) (f : Field) : highest [file, layer, cli] f = topmost cli env file f := by
  simp only [highest, topmost, List.foldl_cons, List.foldl_nil, h]
  cases given cli f <;> cases env f <;> rfl

/-- Where the environment can be read, a configuration is loaded exactly when for each field the value of the highest
layer passes the check of the field, and it has these values; else the fault is one of the configuration. -/
theorem load_topmost [Yaml.Library] (hyaml : Yaml.Library.Forming) (s : Sources) {vars : Environment} {file : Entries}
    {env : Field → Option Value} (hnames : (s.environment.map (·.1)).Nodup) (hvars : s.environ = .ok vars) (hcapital : Capital vars)
    (henv : Reads s.lookup? env) (hfile : s.fileLayer = .ok file) (hcli : (Value.map s.overrides).Formed) :
    (∀ c, load s = .ok c ↔ ∀ f : Field, f.Holds (topmost s.overrides env file f) c) ∧
      ((∃ c, load s = .ok c) ↔ ∀ f : Field, f.Passes (topmost s.overrides env file f)) ∧
      ∀ e, load s = .error e → e.kind = "ConfigError" := by
  have hreads : Reads (fun n => vars.lookup n) env := by
    intro f
    have hf := henv f
    rw [← lookup_environ hvars] at hf
    exact hf
  obtain ⟨layer, hlayer, hgiven, hread⟩ :
      ∃ layer, ofVariables vars = .ok layer ∧ (∀ f, given layer f = env f) ∧ (Value.map layer).Formed :=
    ⟨_, ofVariables_eq hcapital (names_environ hvars hnames) hreads, given_record env, formed_record hreads⟩
  have hload := load_eq hvars hfile hlayer
  have hformed : ∀ l ∈ [file, layer, s.overrides], (Value.map l).Formed := by
    intro l hl
    simp only [List.mem_cons, List.not_mem_nil, or_false] at hl
    rcases hl with rfl | rfl | rfl
    · exact formed_fileLayer hyaml hfile
    · exact hread
    · exact hcli
  have hok : ∀ c, load s = .ok c ↔ ∀ f : Field, f.Holds (topmost s.overrides env file f) c := by
    intro c
    rw [hload, mapError_eq_ok, validate_stack_eq_ok hformed]
    simp only [highest_eq_topmost hgiven]
  refine ⟨hok, ?_, ?_⟩
  · constructor
    · rintro ⟨c, hc⟩ f
      exact ((hok c).mp hc f).passes
    · intro hpasses
      obtain ⟨c, hc⟩ := exists_holds hpasses
      exact ⟨c, (hok c).mpr hc⟩
  · intro e he
    rw [hload] at he
    cases hv : validate (stack [file, layer, s.overrides]) with
    | ok c =>
      rw [hv] at he
      cases he
    | error is =>
      rw [hv] at he
      cases he
      rfl

/-- A caller's parser, a variable of the process, and nothing else. -/
def sampleSources : Sources where
  environment := [("XSELECT_INDENT", "4")]
  overrides := [(.text "parser", .text "html.parser")]

theorem load_topmost_sample :
    (sampleSources.environment.map (·.1)).Nodup ∧ sampleSources.environ = .ok [("XSELECT_INDENT", "4")] ∧
      Capital [("XSELECT_INDENT", "4")] ∧
      Reads sampleSources.lookup? (fun f => if f = .indent then some (.int 4) else none) ∧
      sampleSources.fileLayer = .ok [] ∧ (Value.map sampleSources.overrides).Formed ∧
      load sampleSources = .ok ⟨"xselect", .dev, .info, .console, "html.parser", true, some 4⟩ := by
  have hnames : (sampleSources.environment.map (·.1)).Nodup := by decide
  have hvars : sampleSources.environ = .ok [("XSELECT_INDENT", "4")] := rfl
  have hcapital : Capital [("XSELECT_INDENT", "4")] := by
    intro e he f hf
    obtain rfl := List.mem_singleton.mp he
    have hname : String.ofList (Text.lower "XSELECT_INDENT".toList) = "xselect_indent" := by decide +kernel
    rw [hname] at hf
    cases f <;> first | decide +kernel | exact absurd hf (by decide)
  have henv : Reads sampleSources.lookup? (fun f => if f = .indent then some (.int 4) else none) := by
    intro f
    cases f <;> rfl
  have hfile : sampleSources.fileLayer = .ok [] := rfl
  have hcli : (Value.map sampleSources.overrides).Formed :=
    .map (List.pairwise_singleton _ _) (List.forall_mem_singleton.mpr (.text _))
  refine ⟨hnames, hvars, hcapital, henv, hfile, hcli, ?_⟩
  rw [(load_topmost Yaml.forming sampleSources hnames hvars hcapital henv hfile hcli).1]
  intro f
  cases f with
  | logFormat => exact ⟨none, rfl, rfl⟩
  | _ => rfl

end Harvest.Config
