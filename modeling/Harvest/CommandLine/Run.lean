import Harvest.CommandLine.Arguments
import Harvest.CommandLine.Log
import Harvest.Config.Load
import Harvest.Css.Match
import Harvest.Filter.Standard
import Harvest.Schema.Load
import Harvest.Yaml.Meaning

/-
  The program: it reads a schema and a page and writes what the schema makes of the page.

  A run is a function of the arguments and the surroundings, and of the libraries that the program leans on. It ends with
  an exit code, or with a fault that the program does not expect.

    1. `CommandLine.overrides` is the layer of configuration that arguments give.
    2. `CommandLine.extract` is the value, or the fault, of a run with a configuration.
    3. `CommandLine.run` is the whole program. Only a run that ends well writes to the output.
-/
namespace Harvest.CommandLine

/-- What there is too little of. -/
inductive Shortage where
  | stack
  | memory
  deriving DecidableEq, Repr

namespace Shortage

/-- The text of the fault. -/
def message : Shortage → String
  | stack => "maximum recursion depth exceeded"
  | memory => ""

/-- The name of the kind of the fault. -/
def kind : Shortage → String
  | stack => "RecursionError"
  | memory => "MemoryError"

end Shortage

/-- The steps of a run that need the more room the more is read or written. -/
inductive Stage where
  | schema
  | extraction
  /-- The indentation is made, before anything is written. -/
  | indentation
  deriving DecidableEq, Repr

/-- What the program finds around it. A step can be short of room; no more is known of the bounds of the machine. -/
structure Surroundings where
  files : Files := []
  environment : Environment := []
  input : String := ""
  shortage? : Stage → Option Shortage := fun _ => none

/-- Why there is no result. -/
inductive RunFault where
  | schema (fault : Schema.LoadFault)
  | page (fault : FileFault)
  | extraction (fault : Fault)
  /-- The indentation is too wide to be written. -/
  | indentation
  | shortage (fault : Shortage)

namespace RunFault

/-- The text of a fault. -/
def message : RunFault → String
  | schema f => f.message
  | page f => f.message
  | extraction f => f.message
  | indentation => "cannot fit 'int' into an index-sized integer"
  | shortage f => f.message

/-- The name of the kind of a fault. -/
def kind : RunFault → String
  | schema f => f.kind
  | page f => f.kind
  | extraction f => f.kind
  | indentation => "OverflowError"
  | shortage f => f.kind

/-- Whether the program reports the fault and ends; it does not expect the others. -/
def isReported : RunFault → Bool
  | schema f => f.isReported
  | page f => f.isSystem
  | extraction (.schema f) => f.isReported
  | extraction (.parser (.unknownParser _)) => true
  | _ => false

/-- The fault of an extraction as one of a run. A schema that holds itself has no end, so no stack has room for it. -/
def ofExtraction : Fault → RunFault
  | .schema (.unsupported k) =>
    if Yaml.collectionKinds.contains k then .shortage .stack else .extraction (.schema (.unsupported k))
  | f => .extraction f

end RunFault

/-- How a run ends. -/
inductive Ending where
  | exit (code : Nat)
  /-- The arguments end the run before it begins. -/
  | usage (code : Nat)
  /-- A fault that the program does not expect. -/
  | crash (kind message : String)

/-- What a run leaves behind. -/
structure Outcome where
  ending : Ending
  output : String := ""
  /-- Lines of the error output that are no log lines. -/
  errors : List String := []
  format : LogFormat := .console
  logs : List LogLine := []

/-- The exit code of a run that ends well. -/
def exitOk : Nat := 0

/-- The exit code of a run that ends with a fault that is reported. -/
def exitError : Nat := 2

/-- The name under which the program reports. -/
def programName : String := "xselect: "

/-! ## Configuration -/

/-- An argument that is not empty. -/
def given? (s : Option String) : Option String := s.filter (!·.isEmpty)

/-- A field that is set. -/
def entry (f : Config.Field) (v : Option Value) : Entries := (v.map fun v => (Value.text f.flat, v)).toList

/-- The layer of configuration that arguments give. -/
def overrides (a : Arguments) : Entries :=
  entry .parser ((given? a.parser?).map .text)
    ++ entry .indent (a.indent?.map .int)
    ++ entry .builtinFilters (if a.noBuiltinFilters then some (.bool false) else none)
    ++ entry .logLevel (a.logLevel?.map fun l => .text l.label)
    ++ entry .logFormat (a.logFormat?.map fun f => .text f.name)

/-- What the configuration of a run is loaded from. -/
def sources (a : Arguments) (s : Surroundings) : Config.Sources where
  files := s.files
  environment := s.environment
  config? := (given? a.config?).map Path.ofText
  dotenv? := (given? a.dotenv?).map Path.ofText
  overrides := overrides a

/-! ## Extraction -/

section
variable [Css.Library] [Markup.Library] [Yaml.Library]

/-- Makes sure that a step has room. -/
def Surroundings.room (s : Surroundings) (t : Stage) : Except RunFault Unit :=
  match s.shortage? t with
  | none => .ok ()
  | some f => .error (.shortage f)

/-- The name of the input in place of a file. -/
def inputName : String := "-"

/-- The text of the page. -/
def pageText (a : Arguments) (s : Surroundings) : Except RunFault String :=
  if a.html == inputName then .ok s.input else (s.files.readText (Path.ofText a.html)).mapError .page

/-- The options of a configuration. -/
def optionsOf (c : Config) : Options :=
  { Options.standard with
    dialect := { Options.standardDialect with filters := if c.builtinFilters then Filter.standard else [] } }

/-- The extractor of a page under a configuration. -/
def extractor (c : Config) (html : String) : Except RunFault Extractor :=
  match Markup.loadDocument c.parser html with
  | .ok page => .ok { page, options := optionsOf c }
  | .error f => .error (.extraction (.parser f))

/-- The extractor and the schema of a run. -/
def prepare (c : Config) (a : Arguments) (s : Surroundings) : Except RunFault (Extractor × Value) := do
  s.room .schema
  let schema ← (Schema.load s.files a.schema).mapError .schema
  let html ← pageText a s
  let x ← extractor c html
  s.room .extraction
  return (x, schema)

/-- The result of a run, and what was reported on the way. -/
def extract (c : Config) (a : Arguments) (s : Surroundings) : Except RunFault Value × List Event :=
  match prepare c a s with
  | .error f => (.error f, [])
  | .ok (x, schema) =>
    let (answer, _) := x.call schema none
    (answer.result.mapError .ofExtraction, answer.log)

/-- The greatest indentation that can be written, and one more. -/
def indentLimit : Nat := Nat.pow 2 63

/-- The text of a result. -/
def written (c : Config) (s : Surroundings) (v : Value) : Except RunFault String :=
  if c.indent.any (indentLimit ≤ ·) then .error .indentation
  else (s.room .indentation).map fun _ => Json.write c.indent v ++ "\n"

/-! ## The program -/

/-- The end of a run with a fault. -/
def failure (c : Config) (logs : List LogLine) (f : RunFault) : Outcome :=
  if f.isReported then
    { ending := .exit exitError, format := c.logFormat,
      logs := visible c.logLevel (logs ++ [.failed f.kind f.message]) }
  else
    { ending := .crash f.kind f.message, format := c.logFormat, logs := visible c.logLevel logs }

/-- A run with a configuration. -/
def runWith (c : Config) (a : Arguments) (s : Surroundings) : Outcome :=
  let (result, events) := extract c a s
  let logs := [.configured c, .loaded c] ++ events.map .ofEvent
  match result with
  | .error f => failure c logs f
  | .ok v =>
    let logs := logs ++ [.complete a.schema v]
    match written c s v with
    | .error f => failure c logs f
    | .ok output => { ending := .exit exitOk, output, format := c.logFormat, logs := visible c.logLevel logs }

/-- A run that is not ended by its arguments. -/
def start (a : Arguments) (s : Surroundings) : Outcome :=
  match Config.load (sources a s) with
  | .ok c => runWith c a s
  | .error f =>
    if f.isReported then { ending := .exit exitError, errors := [programName ++ f.message] }
    else { ending := .crash f.kind f.message }

/-- The program. -/
def run (arguments : List String) (s : Surroundings) : Outcome :=
  match Arguments.read arguments with
  | .error f => { ending := .usage exitError, errors := [programName ++ "error: " ++ f.message] }
  | .ok .help => { ending := .usage exitOk }
  | .ok (.run a) => start a s

end
end Harvest.CommandLine
