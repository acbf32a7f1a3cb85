import Harvest.CommandLine.Run
import Harvest.Proofs.Loaded
import Harvest.Proofs.Notation
import Harvest.Proofs.Override
import Harvest.Proofs.Shape

/-
  What a run of the program writes.

  A run asks for one call of an extractor: its arguments name a schema and a page, and lead to a configuration that says
  how the page is read and which filters there are (`Answers`). The program does what the library does with that, where
  the machine has room for it (`extract_eq_ok`), and what it gives is a tree (`Answers.isTree`), so its text can be read
  again.
    1. `run_writes` — a run that ends well writes the result and one line end, any other run writes nothing.
-/
namespace Harvest.CommandLine
variable {a : Arguments} {s : Surroundings} {c : Config} {r : Value}

/-! ## Room, indentations and faults -/

/-- Whether the machine has room for every step. -/
def Surroundings.Roomy (s : Surroundings) : Prop := ∀ t, s.shortage? t = none

theorem room_eq_ok {t : Stage} : s.room t = .ok () ↔ s.shortage? t = none := by
  unfold Surroundings.room
  cases s.shortage? t <;> simp

/-- Whether an indentation can be written. -/
def Writable (c : Config) : Prop := ∀ n, c.indent = some n → n < indentLimit

theorem writable_iff : Writable c ↔ c.indent.any (indentLimit ≤ ·) = false := by
  unfold Writable
  cases c.indent <;> simp

theorem written_eq_ok {text : String} : written c s r = .ok text ↔
    Writable c ∧ s.shortage? .indentation = none ∧ text = Json.write c.indent r ++ "\n" := by
  rw [writable_iff, written]
  cases c.indent.any (indentLimit ≤ ·) with
  | true => simp
  | false =>
    rw [if_neg Bool.false_ne_true, map_eq_ok]
    constructor
    · rintro ⟨⟨⟩, hroom, rfl⟩
      exact ⟨rfl, room_eq_ok.mp hroom, rfl⟩
    · rintro ⟨-, hroom, rfl⟩
      exact ⟨(), room_eq_ok.mpr hroom, rfl⟩

/-- A run with a fault does not end well, and writes nothing. -/
theorem failure_output (c : Config) (logs : List LogLine) (f : RunFault) :
    (failure c logs f).ending ≠ .exit exitOk ∧ (failure c logs f).output = "" := by
  unfold failure
  split <;> simp [exitOk, exitError]

/-! ## Answers -/

/-- The filters of a configuration: those of the library, or none. -/
def registry (c : Config) : Registry := if c.builtinFilters then Filter.standard else []

/-- The filters of a configuration as the setting of an extractor. -/
def filterSetting (c : Config) : Setting := .table ((registry c).map fun (k, f) => (k, .filter f))

section
variable [Css.Library] [Markup.Library] [Yaml.Library]

/-- What the library makes of the schema and the page that arguments name: a call of an extractor of the page, as the
parser of the configuration reads it, that is built with the filters of the configuration. -/
def Answers (a : Arguments) (s : Surroundings) (c : Config) (r : Value) : Prop :=
  ∃ schema html page o,
    Schema.load s.files a.schema = .ok schema ∧
    (if a.html = "-" then html = s.input else s.files.readText (Path.ofText a.html) = .ok html) ∧
    Markup.loadDocument c.parser html = .ok page ∧
    Options.build .nothing [("filters", filterSetting c)] = .ok o ∧
    (Extractor.fresh page o).result schema none = .ok r

end

/-- But for the filters, the options of a configuration are the standard ones. -/
theorem same_optionsOf (c : Config) {choice : Options.Choice} (h : choice ≠ .filters) :
    choice.Same (optionsOf c) Options.standard := by
  cases choice with
  | filters => exact absurd rfl h
  | _ => simp only [Options.Choice.Same, optionsOf, Options.standard]

/-- The options that are built with the filters of a configuration are those of the program. -/
theorem build_eq_ok (c : Config) {o : Options} :
    Options.build .nothing [("filters", filterSetting c)] = .ok o ↔ o = optionsOf c := by
  have hbuild : Options.build .nothing [("filters", filterSetting c)]
      = Options.validate [("filters", filterSetting c)] := by
    simp only [Options.build, Options.Given.settings, Options.update, List.any_nil, Bool.false_eq_true, if_false,
      List.nil_append]
  have hok : Options.validate [("filters", filterSetting c)] = .ok (optionsOf c) := by
    rw [Options.validate_eq_ok]
    intro choice
    by_cases h : choice = .filters
    · subst h
      exact Options.checkTable_filters ["filters"] (registry c)
    · have hnone : choice.pick? [("filters", filterSetting c)] = none := by
        cases choice with
        | filters => exact absurd rfl h
        | _ => rfl
      rw [hnone]
      exact choice.accepts_none.of_same (same_optionsOf c h)
  rw [hbuild, hok, Except.ok.injEq, eq_comm]

theorem treelike_optionsOf (c : Config) : (optionsOf c).engine.Treelike where
  filters := by
    change ∀ p ∈ registry c, p.2.Preserves Value.IsTree
    unfold registry
    split
    · exact Filter.standard_preserves Value.IsTree.stable
    · simp
  queryHook := rfl
  mappingHook := rfl

theorem pageText_eq_ok {html : String} :
    pageText a s = .ok html ↔ if a.html = "-" then html = s.input else s.files.readText (Path.ofText a.html) = .ok html := by
  unfold pageText inputName
  by_cases h : a.html = "-"
  · simp [h, eq_comm]
  · simp [h, mapError_eq_ok]

theorem extractor_eq_ok [Markup.Library] {html : String} {x : Extractor} :
    extractor c html = .ok x ↔ ∃ page, Markup.loadDocument c.parser html = .ok page ∧ x = .fresh page (optionsOf c) := by
  unfold extractor
  cases Markup.loadDocument c.parser html with
  | ok page => simp [Extractor.fresh, eq_comm]
  | error f => simp

section
variable [Markup.Library] [Yaml.Library]

theorem prepare_eq_ok {x : Extractor} {schema : Value} :
    prepare c a s = .ok (x, schema) ↔ (s.shortage? .schema = none ∧ s.shortage? .extraction = none) ∧
      Schema.load s.files a.schema = .ok schema ∧ ∃ html, pageText a s = .ok html ∧ extractor c html = .ok x := by
  unfold prepare
  constructor
  · intro h
    obtain ⟨⟨⟩, hschema, h⟩ := bind_eq_ok.mp h
    obtain ⟨v, hv, h⟩ := bind_eq_ok.mp h
    obtain ⟨html, hhtml, h⟩ := bind_eq_ok.mp h
    obtain ⟨y, hy, h⟩ := bind_eq_ok.mp h
    obtain ⟨⟨⟩, hextraction, h⟩ := bind_eq_ok.mp h
    cases h
    exact ⟨⟨room_eq_ok.mp hschema, room_eq_ok.mp hextraction⟩, mapError_eq_ok.mp hv, html, hhtml, hy⟩
  · rintro ⟨⟨hschema, hextraction⟩, hv, html, hhtml, hx⟩
    rw [room_eq_ok.mpr hschema, ok_bind, mapError_eq_ok.mpr hv, ok_bind, hhtml, ok_bind, hx, ok_bind,
      room_eq_ok.mpr hextraction]
    rfl

variable [Css.Library]

theorem Answers.isTree (hyaml : Yaml.Library.Forming) (h : Answers a s c r) : r.IsTree := by
  obtain ⟨schema, html, page, o, hschema, -, -, ho, hr⟩ := h
  rw [build_eq_ok] at ho
  subst ho
  exact Extractor.result_isTree (treelike_optionsOf c) (Schema.load_formed hyaml hschema) hr

/-- The program does what the library does, where it has room. -/
theorem extract_eq_ok : (extract c a s).1 = .ok r ↔
    (s.shortage? .schema = none ∧ s.shortage? .extraction = none) ∧ Answers a s c r := by
  have hextract : (extract c a s).1 = .ok r ↔
      ∃ x schema, prepare c a s = .ok (x, schema) ∧ x.result schema none = .ok r := by
    unfold extract
    cases prepare c a s with
    | error f => simp
    | ok p =>
      obtain ⟨x, schema⟩ := p
      simp [mapError_eq_ok, Extractor.result]
  rw [hextract]
  constructor
  · rintro ⟨x, schema, hx, hr⟩
    obtain ⟨hroom, hschema, html, hhtml, hx⟩ := prepare_eq_ok.mp hx
    obtain ⟨page, hpage, rfl⟩ := extractor_eq_ok.mp hx
    exact ⟨hroom, schema, html, page, _, hschema, pageText_eq_ok.mp hhtml, hpage, (build_eq_ok c).mpr rfl, hr⟩
  · rintro ⟨hroom, schema, html, page, o, hschema, hhtml, hpage, ho, hr⟩
    rw [build_eq_ok] at ho
    subst ho
    exact ⟨_, schema, prepare_eq_ok.mpr ⟨hroom, hschema, html, pageText_eq_ok.mpr hhtml,
      extractor_eq_ok.mpr ⟨page, hpage, rfl⟩⟩, hr⟩

/-- The library makes one thing of what arguments name. -/
theorem Answers.unique {r' : Value} (h : Answers a s c r) (h' : Answers a s c r') : r = r' := by
  obtain ⟨schema, html, page, o, hschema, hhtml, hpage, ho, hr⟩ := h
  obtain ⟨schema', html', page', o', hschema', hhtml', hpage', ho', hr'⟩ := h'
  obtain rfl := Except.ok.inj (hschema.symm.trans hschema')
  obtain rfl := Except.ok.inj ((pageText_eq_ok.mpr hhtml).symm.trans (pageText_eq_ok.mpr hhtml'))
  obtain rfl := Except.ok.inj (hpage.symm.trans hpage')
  obtain rfl := Except.ok.inj (ho.symm.trans ho')
  exact Except.ok.inj (hr.symm.trans hr')

/-! ## Runs -/

/-- A run with a configuration ends well and writes the text of a result, or does neither. -/
theorem runWith_cases (c : Config) (a : Arguments) (s : Surroundings) :
    (∃ r, Answers a s c r ∧ Writable c ∧ (runWith c a s).ending = .exit exitOk ∧
        (runWith c a s).output = Json.write c.indent r ++ "\n") ∨
      (¬∃ r, s.Roomy ∧ Answers a s c r ∧ Writable c) ∧ (runWith c a s).ending ≠ .exit exitOk ∧
        (runWith c a s).output = "" := by
  have hextract : ∀ r, (extract c a s).1 = .ok r ↔ _ := fun r => extract_eq_ok
  unfold runWith
  rcases hrun : extract c a s with ⟨result, events⟩
  simp only [hrun] at hextract
  cases result with
  | error f =>
    refine .inr ⟨?_, failure_output c _ f⟩
    rintro ⟨r, hroom, hr, -⟩
    cases (hextract r).mpr ⟨⟨hroom _, hroom _⟩, hr⟩
  | ok v =>
    have hv : Answers a s c v := ((hextract v).mp rfl).2
    dsimp only
    cases hw : written c s v with
    | error f =>
      -- there is a result, with an indentation that cannot be written
      refine .inr ⟨?_, failure_output c _ f⟩
      rintro ⟨r, hroom, hr, hc⟩
      rw [written_eq_ok.mpr ⟨hc, hroom _, rfl⟩] at hw
      cases hw
    | ok text =>
      obtain ⟨hc, -, rfl⟩ := written_eq_ok.mp hw
      exact .inl ⟨v, hv, hc, rfl, rfl⟩

/-- Whether arguments lead to a configuration, and with it to a result that can be written. -/
def Leads (arguments : List String) (s : Surroundings) (a : Arguments) (c : Config) (r : Value) : Prop :=
  Arguments.read arguments = .ok (.run a) ∧ Config.load (sources a s) = .ok c ∧ Answers a s c r ∧ Writable c

/-- A run ends well and writes the text of the result that its arguments lead to, or does neither, and they lead to none or
there is no room for it. -/
theorem run_cases (arguments : List String) (s : Surroundings) :
    (∃ a c r, Leads arguments s a c r ∧ (run arguments s).ending = .exit exitOk ∧
        (run arguments s).output = Json.write c.indent r ++ "\n") ∨
      (s.Roomy → ∀ a c r, ¬Leads arguments s a c r) ∧ (run arguments s).ending ≠ .exit exitOk ∧
        (run arguments s).output = "" := by
  unfold run
  cases hread : Arguments.read arguments with
  | error f => exact .inr ⟨by simp [Leads, hread], by simp, rfl⟩
  | ok request =>
    cases request with
    | help => exact .inr ⟨by simp [Leads, hread], by simp, rfl⟩
    | run a =>
      dsimp only
      unfold start
      cases hload : Config.load (sources a s) with
      | error f =>
        have hnone : s.Roomy → ∀ a' c r, ¬Leads arguments s a' c r := by
          rintro - a' c r ⟨ha, hc, -⟩
          rw [hread] at ha
          cases ha
          rw [hload] at hc
          cases hc
        dsimp only
        split
        · exact .inr ⟨hnone, by simp [exitOk, exitError], rfl⟩
        · exact .inr ⟨hnone, by simp, rfl⟩
      | ok c =>
        rcases runWith_cases c a s with ⟨r, hr, hc, hending, houtput⟩ | ⟨hnone, hending, houtput⟩
        · exact .inl ⟨a, c, r, ⟨hread, hload, hr, hc⟩, hending, houtput⟩
        · refine .inr ⟨?_, hending, houtput⟩
          rintro hroom a' c' r ⟨ha, hc, hr⟩
          rw [hread] at ha
          cases ha
          rw [hload] at hc
          cases hc
          exact hnone ⟨r, hroom, hr⟩

end

/-- A run that ends with a reported fault writes nothing. One that ends well writes one JSON text and a line end; the text
reads as the result of the library, a tree that holds nothing but what JSON has a notation for. And a run ends well where
the library gives a result that can be written, and the machine has room for it. -/
theorem run_writes [Css.Library] [Markup.Library] [Yaml.Library] (hyaml : Yaml.Library.Forming)
    (arguments : List String) (s : Surroundings) :
    ((run arguments s).ending = .exit exitError → (run arguments s).output = "") ∧
      ((run arguments s).ending = .exit exitOk → ∃ a c r text, Arguments.read arguments = .ok (.run a) ∧
        Config.load (sources a s) = .ok c ∧ Answers a s c r ∧ r.IsTree ∧ text = Json.write c.indent r ∧
        (run arguments s).output = text ++ "\n" ∧ Json.read text = .ok r) ∧
      ∀ a c r, Arguments.read arguments = .ok (.run a) → Config.load (sources a s) = .ok c → Answers a s c r →
        Writable c → s.Roomy → (run arguments s).ending = .exit exitOk := by
  rcases run_cases arguments s with ⟨a, c, r, ⟨ha, hc, hr, -⟩, hending, houtput⟩ | ⟨hnone, hending, houtput⟩
  · refine ⟨?_, ?_, fun _ _ _ _ _ _ _ _ => hending⟩
    · intro herror
      rw [hending] at herror
      cases herror
    · intro _
      have htree := hr.isTree hyaml
      exact ⟨a, c, r, _, ha, hc, hr, htree, rfl, houtput, Json.read_write htree c.indent⟩
  · refine ⟨fun _ => houtput, fun hok => absurd hok hending, ?_⟩
    intro a c r ha hc hr hw hroom
    exact absurd ⟨ha, hc, hr, hw⟩ (hnone hroom a c r)

/-! ## A run to try -/

namespace Sample
open Harvest.Sample

/-- The schema of the sample page, as an argument. -/
def schemaText : String := "\x7b\"title\": \"b\", \"items\": [\x7b\"$root\": \"li\", \"title\": \"b\"\x7d]\x7d"

/-- Arguments that set the parser and the indentation. -/
def arguments : Arguments := { schema := schemaText, parser? := some "html.parser", indent? := some 1 }

/-- The sample page on the standard input. -/
def surroundings : Surroundings := { input := "<li><b>x</b></li><li></li>" }

/-- The configuration that they lead to. -/
def config : Config := ⟨"xselect", .dev, .info, .console, "html.parser", true, some 1⟩

theorem schema_isTree : schema.IsTree := by
  have htitles : (Value.ofRecord [("$root", .text "li"), ("title", .text "b")]).IsTree :=
    .record (by decide) (by simp [Value.IsTree.text])
  have hschema : (Value.ofRecord [("title", .text "b"), ("items", .list [.map titles])]).IsTree :=
    .record (by decide) (by simpa using ⟨.text _, .list (List.forall_mem_singleton.mpr htitles)⟩)
  exact hschema

/-- No file has the name of the schema, so it is read as JSON. -/
theorem load_schema : Schema.load surroundings.files schemaText = .ok schema := by
  have hpath : Path.ofText schemaText = ⟨false, [schemaText]⟩ := by decide +kernel
  have htext : (⟨false, [schemaText]⟩ : Path).text = schemaText := by decide +kernel
  have hmissing : Files.find surroundings.files ⟨false, [schemaText]⟩ = .missing := by
    rw [Files.find, htext, if_neg (by simp [schemaText]), if_neg (by decide +kernel)]
    rfl
  have hwrite : Json.write none schema = schemaText := by decide +kernel
  have hjson : Json.read schemaText = .ok schema := hwrite ▸ Json.read_write schema_isTree none
  rw [Schema.load, hpath]
  simp only [hmissing, Schema.ofInline, hjson]

theorem answers : Answers arguments surroundings config value := by
  have hpage : Markup.loadDocument config.parser surroundings.input = .ok page := rfl
  have hoptions : optionsOf config = options := by
    simp only [optionsOf, options, Options.standard, config, if_true]
  have hhtml : if arguments.html = "-" then surroundings.input = surroundings.input
      else surroundings.files.readText (Path.ofText arguments.html) = .ok surroundings.input := by
    rw [if_pos (by rfl)]
  exact ⟨schema, surroundings.input, page, options, load_schema, hhtml, hpage, (build_eq_ok config).mpr hoptions.symm,
    result_value⟩

end Sample

/-- A run that writes the titles of the sample page, and one that ends with a fault of its configuration. -/
theorem run_writes_sample :
    (run [Sample.schemaText, "--parser", "html.parser", "--indent=1"] Sample.surroundings).ending = .exit exitOk ∧
      (run [Sample.schemaText, "--parser", "html.parser", "--indent=1"] Sample.surroundings).output
        = "\x7b\n \"title\": \"x\",\n \"items\": [\n  \x7b\n   \"title\": \"x\"\n  \x7d\n ]\n\x7d\n" ∧
      (run ["[]", "--indent=-1"] Sample.surroundings).ending = .exit exitError ∧
      (run ["[]", "--indent=-1"] Sample.surroundings).output = "" := by
  have hread : Arguments.read [Sample.schemaText, "--parser", "html.parser", "--indent=1"]
      = .ok (.run Sample.arguments) := rfl
  have hload : Config.load (sources Sample.arguments Sample.surroundings) = .ok Sample.config := rfl
  have hwritable : Writable Sample.config := by
    rintro n ⟨⟩
    decide
  obtain ⟨-, hok, hends⟩ :=
    run_writes Yaml.forming [Sample.schemaText, "--parser", "html.parser", "--indent=1"] Sample.surroundings
  have hending := hends _ _ _ hread hload Sample.answers hwritable fun _ => rfl
  have hfault : (run ["[]", "--indent=-1"] Sample.surroundings).ending = .exit exitError := by
    have hread : Arguments.read ["[]", "--indent=-1"] = .ok (.run { schema := "[]", indent? := some (-1) }) := rfl
    have hload : Config.load (sources { schema := "[]", indent? := some (-1) } Sample.surroundings)
        = .error (.invalid [⟨.rule "indent must be >= 0", ["output", "indent"]⟩]) := rfl
    simp only [run, hread, start, hload]
    rfl
  refine ⟨hending, ?_, hfault, (run_writes Yaml.forming ["[]", "--indent=-1"] Sample.surroundings).1 hfault⟩
  obtain ⟨a, c, r, text, ha, hc, hr, -, rfl, houtput, -⟩ := hok hending
  rw [hread] at ha
  cases ha
  rw [hload] at hc
  cases hc
  rw [houtput, hr.unique Sample.answers]
  decide +kernel

end Harvest.CommandLine
