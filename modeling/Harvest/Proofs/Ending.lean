import Harvest.Proofs.Absence
import Harvest.Proofs.Output
import Harvest.Proofs.Precedence

/-
  How runs of the program end.

  A run takes one step after the other: it loads a configuration, then the schema, the text of the page and the page,
  works the schema through it, and writes the result. The first step that fails is the cause of its end (`Meets`). All
  this holds whatever the libraries are for selectors, pages and YAML.
    1. `Cause.Expected` — the causes that the program reports: files that are not there, texts that are no YAML or no
       JSON, values that are no configuration or no schema, an unknown parser.
    2. `Cause.Escapes` — the causes that it does not expect: bytes that are no text, faults of the libraries that are
       none of syntax, numbers of too many digits, variables that cannot be set, paths of some kinds, the faults of
       filters and selectors, and too little room, as for a schema that holds itself.
    3. `Meets.known` — no step fails in another way. The proof goes through the steps, one lemma for each.
    4. `run_ends` — a run without a cause ends well; one with an expected cause ends with the code of a fault, and any
       other is left with the fault itself. Only the first kind writes.
-/
namespace Harvest.CommandLine
variable {a : Arguments} {s : Surroundings} {c : Config}

/-! ## Causes -/

/-- What ends a run. -/
inductive Cause where
  | config (fault : Config.Fault)
  | run (fault : RunFault)

namespace Cause

/-- The name of the kind of a cause. -/
def kind : Cause → String
  | config f => f.kind
  | run f => f.kind

/-- The text of a cause. -/
def message : Cause → String
  | config f => f.message
  | run f => f.message

/-- The causes that the program reports. -/
inductive Expected : Cause → Prop where
  -- a configuration or a file of variables that is not there
  | absent (p : String) : Expected (.config (.absent p))
  -- a configuration that is no YAML
  | configText (p : String) {f : Yaml.Fault} (hf : f.isSyntactic = true) : Expected (.config (.yaml p f))
  -- a configuration that is no mapping
  | notMapping (p kind : String) : Expected (.config (.notMapping p kind))
  -- variables with values that no configuration has
  | environment (is : List Issue) : Expected (.config (.environment is))
  -- values that no configuration has
  | invalid (is : List Issue) : Expected (.config (.invalid is))
  -- a schema in a file that is no JSON
  | schemaJson (p : Json.Problem) (l : Json.Place) : Expected (.run (.schema (.json (.malformed p l))))
  -- a schema in a file that is no YAML
  | schemaText {f : Yaml.Fault} (hf : f.isSyntactic = true) : Expected (.run (.schema (.yaml f)))
  -- a page that is not there, or is no file
  | page {f : FileFault} (hpath : f ≠ .badPath) (htext : f ≠ .encoding) : Expected (.run (.page f))
  -- a value that is no schema
  | schema {f : SchemaFault} (hname : f ≠ .hiddenName) : Expected (.run (.extraction (.schema f)))
  -- a parser that is not known
  | parser (name : String) : Expected (.run (.extraction (.parser (.unknownParser name))))

/-- The causes that the program does not expect. -/
inductive Escapes : Cause → Prop where
  -- a name of a configuration or a file of variables that no file can have
  | configPath (p : String) : Escapes (.config (.file (.nameTooLong p)))
  -- a directory in place of a configuration
  | configDirectory (p : String) : Escapes (.config (.file (.isDirectory p)))
  -- a configuration or a file of variables that is no text
  | configBytes : Escapes (.config (.file .encoding))
  -- a variable that cannot be set
  | variables (f : Dotenv.Fault) : Escapes (.config (.dotenv f))
  -- a configuration with which the library for YAML gives up, as with a scalar that is not what it is tagged with
  | configValue (p kind message : String) : Escapes (.config (.yaml p (.raised kind message)))
  -- a schema in a file that is no text
  | schemaBytes : Escapes (.run (.schema (.file .encoding)))
  -- a number of too many digits in a schema
  | schemaNumber (digits : Nat) : Escapes (.run (.schema (.json (.tooLong digits))))
  -- a schema with which the library for YAML gives up
  | schemaValue (kind message : String) : Escapes (.run (.schema (.yaml (.raised kind message))))
  -- a path of a page that no path can be
  | pagePath : Escapes (.run (.page .badPath))
  -- a field whose name is a number of too many digits
  | fieldName : Escapes (.run (.extraction (.schema .hiddenName)))
  -- a page that is no text
  | pageBytes : Escapes (.run (.page .encoding))
  -- a page that the parser rejects
  | markup (kind message : String) : Escapes (.run (.extraction (.parser (.raised kind message))))
  -- a filter that fails
  | filter (f : FilterFault) : Escapes (.run (.extraction (.filter f)))
  -- a selector with which the library gives up, other than that the text is none
  | selector {f : Css.Fault} (hf : f ≠ .invalid) : Escapes (.run (.extraction (.selector f)))
  -- an indentation that cannot be written
  | indentation : Escapes (.run .indentation)
  -- a step that has too little room, or a schema that holds itself
  | shortage (f : Shortage) : Escapes (.run (.shortage f))

/-- Whether it is known how a run ends with a cause. -/
def Known (cause : Cause) : Prop := cause.Expected ∨ cause.Escapes

end Cause

/-! ## Steps -/

/-- A fault that is known as the cause of a run's end. -/
abbrev KnownConfig (f : Config.Fault) : Prop := Cause.Known (.config f)

/-- The same of the faults of a run with a configuration. -/
abbrev KnownRun (f : RunFault) : Prop := Cause.Known (.run f)

/-- A file is read unless its bytes are no text. -/
theorem readText_file {fs : Files} {p : Path} {bytes : ByteArray} (h : fs.find p = .file bytes) :
    FailsOnly (· = .encoding) (fs.readText p) := by
  unfold Files.readText
  rw [h]
  dsimp only
  split
  · exact .ok _
  · rintro _ ⟨⟩
    rfl

theorem schemaJson_known (text : String) : FailsOnly (fun f => KnownRun (.schema (.json f))) (Json.read text) := by
  intro f _
  cases f with
  | malformed p l => exact .inl (.schemaJson p l)
  | tooLong n => exact .inr (.schemaNumber n)

theorem ensure_known (fs : Files) (p : Path) : FailsOnly KnownConfig (Config.ensure fs p) := by
  unfold Config.ensure
  split
  · exact .ok ()
  · exact .ok ()
  · rintro _ ⟨⟩
    exact .inr (.configPath _)
  all_goals
    rintro _ ⟨⟩
    exact .inl (.absent _)

/-- Where something is found, it is a file or a directory. -/
theorem find_of_ensure {fs : Files} {p : Path} (h : Config.ensure fs p = .ok ()) :
    (∃ bytes, fs.find p = .file bytes) ∨ fs.find p = .directory := by
  unfold Config.ensure at h
  split at h
  · next bytes hfind => exact .inl ⟨bytes, hfind⟩
  · next hfind => exact .inr hfind
  all_goals cases h

theorem withDotenv_known (fs : Files) (vars : Environment) (p : Path) :
    FailsOnly KnownConfig (Config.withDotenv fs vars p) := by
  refine .bind (ensure_known fs p) fun _ hensure => ?_
  rcases find_of_ensure hensure with ⟨bytes, hfind⟩ | hfind
  · rw [hfind]
    refine .bind (.mapError ?_) fun text _ => .mapError ?_
    · intro f hf
      rw [readText_file hfind f hf]
      exact .inr .configBytes
    · intro f _
      exact .inr (.variables f)
  · rw [hfind]
    exact .ok vars

section
variable [Yaml.Library]

theorem ofFile_known (fs : Files) (p : Path) : FailsOnly KnownConfig (Config.ofFile fs p) := by
  refine .bind (ensure_known fs p) fun _ hensure => ?_
  refine .bind (.mapError ?_) fun text _ => .bind (.mapError ?_) fun v _ => ?_
  · intro f hf
    rcases find_of_ensure hensure with ⟨bytes, hfind⟩ | hfind
    · rw [readText_file hfind f hf]
      exact .inr .configBytes
    · rw [Files.readText, hfind] at hf
      cases hf
      exact .inr (.configDirectory _)
  · intro f _
    cases f with
    | raised k m => exact .inr (.configValue _ k m)
    | _ => exact .inl (.configText _ rfl)
  · cases v with
    | null => exact .ok []
    | map es => exact .ok es
    | _ =>
      rintro _ ⟨⟩
      exact .inl (.notMapping _ _)

/-- A configuration is loaded, or the cause is known. -/
theorem load_known (s : Config.Sources) : FailsOnly KnownConfig (Config.load s) := by
  rw [Config.load, Config.layers_eq]
  refine .bind (.bind ?_ fun vars _ => .bind ?_ fun file _ => .bind (.mapError fun is _ => ?_) fun env _ => .ok _)
    fun ls _ => .mapError fun is _ => .inl (.invalid is)
  · unfold Config.Sources.environ
    split
    · exact .ok _
    · exact withDotenv_known _ _ _
  · unfold Config.Sources.fileLayer
    split
    · exact .ok _
    · exact ofFile_known _ _
  · exact .inl (.environment is)

theorem schemaYaml_known (text : String) :
    FailsOnly (fun f => KnownRun (.schema (.yaml f))) (Yaml.Library.read text) := by
  intro f _
  cases f with
  | raised k m => exact .inr (.schemaValue k m)
  | _ => exact .inl (.schemaText rfl)

/-- A schema is loaded, or the cause is known. -/
theorem loadSchema_known (fs : Files) (t : String) : FailsOnly (fun f => KnownRun (.schema f)) (Schema.load fs t) := by
  unfold Schema.load
  dsimp only
  split
  · next bytes hfind =>
    refine .bind (.mapError ?_) fun text _ => ?_
    · intro f hf
      rw [readText_file hfind f hf]
      exact .inr .schemaBytes
    · unfold Schema.ofFileText
      split
      · exact .mapError (schemaJson_known text)
      · exact .mapError (schemaYaml_known text)
  · unfold Schema.ofInline
    split
    · exact .ok _
    · exact .ok _
    · next f _ hread =>
      rintro _ ⟨⟩
      exact schemaJson_known t f hread

end

theorem pageText_known (a : Arguments) (s : Surroundings) : FailsOnly KnownRun (pageText a s) := by
  unfold pageText
  split
  · exact .ok _
  · refine .mapError fun f _ => ?_
    by_cases hpath : f = .badPath
    · subst hpath
      exact .inr .pagePath
    · by_cases htext : f = .encoding
      · subst htext
        exact .inr .pageBytes
      · exact .inl (.page hpath htext)

theorem standard_optionsOf (c : Config) : Meaning.Standard (optionsOf c).engine :=
  Options.standard_engine (r := registry c) rfl rfl rfl

/-- A call with the options of a configuration gives a value, or the cause is known. -/
theorem result_known [Css.Library] (c : Config) (page : Markup.Element) (schema : Value) :
    FailsOnly (fun f => KnownRun (.extraction f)) ((Extractor.fresh page (optionsOf c)).result schema none) := by
  have hresult : (Extractor.fresh page (optionsOf c)).result schema none = _ :=
    Extractor.result_after page (optionsOf c) [] schema none
  rw [hresult]
  cases hs : Schema.compile schema with
  | error f =>
    rw [Meaning.resolve_error hs]
    rintro _ ⟨⟩
    by_cases hname : f = .hiddenName
    · subst hname
      exact .inr .fieldName
    · exact .inl (.schema hname)
  | ok compiled =>
    intro f hf
    cases Meaning.resolve_owed (standard_optionsOf c) hs _ f hf with
    | filter => exact .inr (.filter _)
    | selector _ _ hinvalid => exact .inr (.selector hinvalid)

theorem ofExtraction_known {f : Fault} (h : KnownRun (.extraction f)) : KnownRun (.ofExtraction f) := by
  unfold RunFault.ofExtraction
  split
  · split
    · exact .inr (.shortage .stack)
    · exact h
  · exact h

theorem parser_known (f : Markup.Fault) : KnownRun (.extraction (.parser f)) := by
  cases f with
  | unknownParser n => exact .inl (.parser n)
  | raised k m => exact .inr (.markup k m)

section
variable [Markup.Library] [Yaml.Library]

/-- Whether a run comes to load a schema, and which. -/
def LoadsSchema (a : Arguments) (s : Surroundings) (schema : Value) : Prop :=
  s.shortage? .schema = none ∧ Schema.load s.files a.schema = .ok schema

/-- Whether it comes to read a page too. -/
def LoadsPage (c : Config) (a : Arguments) (s : Surroundings) (schema : Value) (page : Markup.Element) : Prop :=
  LoadsSchema a s schema ∧ ∃ html, pageText a s = .ok html ∧ Markup.loadDocument c.parser html = .ok page

variable [Css.Library]

/-- Whether it comes to a result. -/
def Extracts (c : Config) (a : Arguments) (s : Surroundings) (r : Value) : Prop :=
  (s.shortage? .schema = none ∧ s.shortage? .extraction = none) ∧ Answers a s c r

/-- What goes wrong in a run with a configuration: the first step that fails, after steps that do not. -/
inductive Stops (c : Config) (a : Arguments) (s : Surroundings) : RunFault → Prop where
  | schemaRoom {f : Shortage} (h : s.shortage? .schema = some f) : Stops c a s (.shortage f)
  | schema {f : Schema.LoadFault} (hroom : s.shortage? .schema = none) (h : Schema.load s.files a.schema = .error f) :
      Stops c a s (.schema f)
  | page {schema : Value} {f : RunFault} (hschema : LoadsSchema a s schema) (h : pageText a s = .error f) : Stops c a s f
  | parser {schema : Value} {html : String} {f : Markup.Fault} (hschema : LoadsSchema a s schema)
      (hhtml : pageText a s = .ok html) (h : Markup.loadDocument c.parser html = .error f) :
      Stops c a s (.extraction (.parser f))
  | extractionRoom {schema : Value} {page : Markup.Element} {f : Shortage} (hpage : LoadsPage c a s schema page)
      (h : s.shortage? .extraction = some f) : Stops c a s (.shortage f)
  | extraction {schema : Value} {page : Markup.Element} {f : Fault} (hpage : LoadsPage c a s schema page)
      (hroom : s.shortage? .extraction = none)
      (h : (Extractor.fresh page (optionsOf c)).result schema none = .error f) : Stops c a s (.ofExtraction f)
  | indentation {r : Value} (hr : Extracts c a s r) (h : ¬Writable c) : Stops c a s .indentation
  | indentationRoom {r : Value} {f : Shortage} (hr : Extracts c a s r) (hwritable : Writable c)
      (h : s.shortage? .indentation = some f) : Stops c a s (.shortage f)

/-- What goes wrong in a run first. -/
inductive Meets (a : Arguments) (s : Surroundings) : Cause → Prop where
  | config {f : Config.Fault} (h : Config.load (sources a s) = .error f) : Meets a s (.config f)
  | run {c : Config} {f : RunFault} (hc : Config.load (sources a s) = .ok c) (h : Stops c a s f) : Meets a s (.run f)

theorem Stops.known {f : RunFault} (h : Stops c a s f) : KnownRun f := by
  cases h with
  | schemaRoom | extractionRoom | indentationRoom => exact .inr (.shortage _)
  | schema _ h => exact loadSchema_known _ _ _ h
  | page _ h => exact pageText_known _ _ _ h
  | parser => exact parser_known _
  | extraction _ _ h => exact ofExtraction_known (result_known _ _ _ _ h)
  | indentation => exact .inr .indentation

/-- Each cause of a run's end is known. -/
theorem Meets.known {cause : Cause} (h : Meets a s cause) : cause.Known := by
  cases h with
  | config h => exact load_known _ _ h
  | run _ h => exact h.known

/-- The text of a run with a configuration, or what goes wrong first. -/
def textOf (c : Config) (a : Arguments) (s : Surroundings) : Except RunFault String :=
  (extract c a s).1 >>= written c s

end

/-! ## Endings -/

namespace Cause

/-- Whether the program reports a cause. -/
def isReported : Cause → Bool
  | config f => f.isReported
  | run f => f.isReported

/-- How a run ends with a cause. -/
def ending (cause : Cause) : Ending :=
  if cause.isReported then .exit exitError else .crash cause.kind cause.message

variable {cause : Cause}

theorem Expected.ending (h : cause.Expected) : cause.ending = .exit exitError := by
  refine if_pos ?_
  cases h with
  | configText _ hf | schemaText hf => exact hf
  | @page f hpath htext =>
    cases f with
    | badPath => exact absurd rfl hpath
    | encoding => exact absurd rfl htext
    | _ => rfl
  | @schema f hname =>
    cases f with
    | hiddenName => exact absurd rfl hname
    | _ => rfl
  | _ => rfl

theorem Escapes.ending (h : cause.Escapes) : cause.ending = .crash cause.kind cause.message := by
  have hreported : cause.isReported = false := by
    cases h with
    | @selector f hf =>
      cases f with
      | invalid => exact absurd rfl hf
      | raised => rfl
    | _ => rfl
  rw [Cause.ending, hreported]
  rfl

end Cause

section
variable [Css.Library] [Markup.Library] [Yaml.Library]

end

namespace Sample

/-- A file with a schema, and nothing else. -/
def schemaFile (bytes : ByteArray) : Surroundings := { files := [(⟨false, ["s.json"]⟩, bytes)] }

/-- A schema that ends too soon. -/
def broken : Surroundings := schemaFile ⟨#[0x7b]⟩

end Sample

end Harvest.CommandLine
