import Harvest.Config.Check
import Harvest.Dotenv
import Harvest.Files
import Harvest.Yaml.Library

/-
  Loading a configuration.

  Four layers lie on top of each other: what holds by default, a YAML file, the environment, and what the caller sets.
  A file of variables adds to the environment first. All faults of files come before those of the environment, and these
  before those of the whole.
-/
namespace Harvest.Config

/-- Why there is no configuration. -/
inductive Fault where
  /-- A file that is named does not exist. -/
  | absent (path : String)
  | file (fault : FileFault)
  | dotenv (fault : Dotenv.Fault)
  | yaml (path : String) (fault : Yaml.Fault)
  | notMapping (path kind : String)
  | environment (issues : List Issue)
  | invalid (issues : List Issue)
  deriving Repr

namespace Fault

/-- The text of a fault. -/
def message : Fault → String
  | absent p => p
  | file f => f.message
  | dotenv f => f.message
  | yaml p f => if f.isSyntactic then "Invalid YAML in " ++ p else f.message
  | notMapping p k => p ++ ": config YAML must be a mapping, got " ++ k
  | environment is => "Invalid XSELECT_* environment variable: " ++ issuesHeading is.length "EnvOverrides"
  | invalid is => issuesHeading is.length "AppConfig"

/-- The name of the kind of a fault. -/
def kind : Fault → String
  | absent _ => "FileNotFoundError"
  | file f => f.kind
  | dotenv _ => "ValueError"
  | yaml _ f => if f.isSyntactic then "ConfigError" else f.kind
  | _ => "ConfigError"

/-- What validation found wrong. -/
def issues : Fault → List Issue
  | environment is => is
  | invalid is => is
  | _ => []

/-- Whether the program reports the fault and ends; it does not expect the others. -/
def isReported : Fault → Bool
  | file f => f.isMissing
  | dotenv _ => false
  | yaml _ f => f.isSyntactic
  | _ => true

end Fault

/-- Makes sure that something is found at a path. -/
def ensure (fs : Files) (p : Path) : Except Fault Unit :=
  match fs.find p with
  | .file _ | .directory => .ok ()
  | .nameTooLong => .error (.file (.nameTooLong p.text))
  | .missing | .notDirectory | .badPath => .error (.absent p.text)

/-- The variables of a process with those of a file, where something else than a file adds none. -/
def withDotenv (fs : Files) (vars : Environment) (p : Path) : Except Fault Environment := do
  ensure fs p
  match fs.find p with
  | .directory => return vars
  | _ =>
    let text ← (fs.readText p).mapError .file
    (Dotenv.load vars text).mapError .dotenv

variable [Yaml.Library]

/-- The layer of a YAML file; a file without a value gives nothing. -/
def ofFile (fs : Files) (p : Path) : Except Fault Entries := do
  ensure fs p
  let text ← (fs.readText p).mapError .file
  match ← (Yaml.Library.read text).mapError (.yaml p.text) with
  | .null => return []
  | .map es => return es
  | v => throw (.notMapping p.text v.kind)

/-- What a configuration is loaded from. -/
structure Sources where
  files : Files := []
  environment : Environment := []
  config? : Option Path := none
  dotenv? : Option Path := none
  overrides : Entries := []

/-- The layers, the lowest first. -/
def layers (s : Sources) : Except Fault (List Entries) := do
  let vars ← match s.dotenv? with
    | none => pure s.environment
    | some p => withDotenv s.files s.environment p
  let file ← match s.config? with
    | none => pure []
    | some p => ofFile s.files p
  let env ← (ofVariables vars).mapError .environment
  return [file, env, s.overrides]

/-- Loads a configuration. -/
def load (s : Sources) : Except Fault Config := do
  (validate (stack (← layers s))).mapError .invalid

end Harvest.Config
