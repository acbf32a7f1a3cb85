import Harvest.Files
import Harvest.Json.Reader
import Harvest.Yaml.Library

/-
  Loading a schema that is named by a text.

  The text is the path of a file, a JSON text, or a schema of its own: a selector. A file holds JSON if its name ends in
  `.json`, else YAML. Text that is neither a file nor JSON is the selector.
-/
namespace Harvest.Schema

/-- Why no schema can be loaded. -/
inductive LoadFault where
  | file (fault : FileFault)
  | json (fault : Json.Fault)
  | yaml (fault : Yaml.Fault)
  deriving DecidableEq, Repr

namespace LoadFault

/-- The text of a fault. -/
def message : LoadFault → String
  | file f => f.message
  | json f => f.message
  | yaml f => f.message

/-- The name of the kind of a fault. -/
def kind : LoadFault → String
  | file f => f.kind
  | json (.malformed _ _) => "JSONDecodeError"
  | json (.tooLong _) => "ValueError"
  | yaml f => f.kind

/-- Whether a file or its text is at fault in a way that the program reports; it does not expect the others. -/
def isReported : LoadFault → Bool
  | file f => f.isSystem
  | json (.malformed _ _) => true
  | json (.tooLong _) => false
  | yaml f => f.isSyntactic

end LoadFault

/-- The suffix of the names of JSON files. -/
def jsonSuffix : String := ".json"

variable [Yaml.Library]

/-- The value that the text of a file writes down. -/
def ofFileText (p : Path) (text : String) : Except LoadFault Value :=
  if String.ofList (Text.lower p.suffix.toList) == jsonSuffix then (Json.read text).mapError .json
  else (Yaml.Library.read text).mapError .yaml

/-- The value that a text writes down by itself. -/
def ofInline (s : String) : Except LoadFault Value :=
  match Json.read s with
  | .ok v => .ok v
  | .error (.malformed _ _) => .ok (.text s)
  | .error f => .error (.json f)

/-- The value that a text names. -/
def load (fs : Files) (s : String) : Except LoadFault Value :=
  let p := Path.ofText s
  match fs.find p with
  | .file _ => do ofFileText p (← (fs.readText p).mapError .file)
  | _ => ofInline s

end Harvest.Schema
