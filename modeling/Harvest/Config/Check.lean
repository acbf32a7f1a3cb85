import Harvest.Config.Layer
import Harvest.Validation.Coerce

/-
  Validation of a configuration.

    1. `Config.validate` reads all fields of a mapping; what is wrong is listed in the order of the fields. A field that is
       not given has its standard value.
    2. `Config.ofVariables` reads the variables of the environment whose names begin with `XSELECT_`, in any case.
-/
namespace Harvest.Config

/-- What a field holds, read from what is given for it. -/
def check {α : Type} (standard : α) (read : Coerce.Reader α) (given : Option (List String × Value)) : Checked α :=
  match given with
  | none => .ok standard
  | some (path, v) =>
    match read v with
    | .ok a => .ok a
    | .error c => Checked.fail c path

/-- An indentation, which may not be negative. -/
def indentation : Coerce.Reader (Option Nat)
  | .null => .ok none
  | v => do
    let i ← Coerce.integer v
    if i < 0 then throw (.rule "indent must be >= 0") else return some i.toNat

/-- The configuration that entries give. -/
def validate (es : Entries) : Checked Config :=
  let appName := check "xselect" Coerce.text (provided es .appName)
  let deployment := check .dev (Coerce.among Deployment.names) (provided es .deployment)
  let logLevel := check .info (Coerce.among Level.labels) (provided es .logLevel)
  let logFormat := check none (Coerce.optional (Coerce.among LogFormat.names)) (provided es .logFormat)
  let parser := check "lxml" Coerce.text (provided es .parser)
  let builtinFilters := check true Coerce.truth (provided es .builtinFilters)
  let indent := check (some 2) indentation (provided es .indent)
  match appName, deployment, logLevel, logFormat, parser, builtinFilters, indent with
  | .ok a, .ok d, .ok l, .ok f, .ok p, .ok b, .ok i => .ok ⟨a, d, l, f.getD d.format, p, b, i⟩
  | _, _, _, _, _, _, _ =>
    .error (appName.issues ++ deployment.issues ++ logLevel.issues ++ logFormat.issues ++ parser.issues
      ++ builtinFilters.issues ++ indent.issues)

/-- The configuration that a value gives. -/
def ofValue : Value → Checked Config
  | .map es => validate es
  | _ => Checked.fail (.notRecord "AppConfig") []

/-! ## The environment -/

/-- The variables of a process, by name. -/
abbrev Variables := List (String × String)

/-- What the names of variables begin with. -/
def variableStem : String := "xselect_"

/-- The text of the variable of a field; of variables that differ in case only, the last one counts. -/
def valueOf? (vars : Variables) (f : Field) : Option String :=
  (vars.reverse.find? fun (n, _) => String.ofList (Text.lower n.toList) == variableStem ++ f.flat).map (·.2)

/-- The value of a field among variables. -/
def readVariable (f : Field) (s : String) : Except Complaint Value :=
  let v := Value.text s
  match f with
  | .appName | .parser => .ok v
  | .deployment => (Coerce.among Deployment.names v).map fun _ => v
  | .logLevel => (Coerce.among Level.labels v).map fun _ => v
  | .logFormat => (Coerce.among LogFormat.names v).map fun _ => v
  | .builtinFilters => (Coerce.truth v).map .bool
  | .indent => (Coerce.integer v).map .int

/-- The entry of a field, if a variable gives it. -/
def variableEntry (vars : Variables) (f : Field) : Checked Entries :=
  match valueOf? vars f with
  | none => .ok []
  | some s =>
    match readVariable f s with
    | .ok v => .ok [(.text f.flat, v)]
    | .error c => Checked.fail c [f.flat]

/-- The results of all checks, or everything that is wrong. -/
def gather : List (Checked Entries) → Checked Entries
  | [] => .ok []
  | c :: cs =>
    match c, gather cs with
    | .ok es, .ok more => .ok (es ++ more)
    | c, rest => .error (c.issues ++ rest.issues)

/-- The layer that variables give. -/
def ofVariables (vars : Variables) : Checked Entries := gather (Field.all.map (variableEntry vars))

end Harvest.Config
