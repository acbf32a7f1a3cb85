import Harvest.Config.Basic
import Harvest.Extractor
import Harvest.Json.Printer

/-
  Log lines of the program.

  A line has a level, the name of the part that reports it, the name of an event and the fields of the event. Lines below
  the configured level are dropped.
-/
namespace Harvest.CommandLine

/-- A log line. -/
structure LogLine where
  level : Level
  logger : String
  event : String
  fields : Value.Record

/-- The part of the program that reports an event. -/
def reporter : Event → String
  | .selectorUnparsed _ => "xselect.infrastructure.parsing.selector_parser"
  | .filterUnknown _ _ => "xselect.infrastructure.parsing.selector_parser"
  | .selectorInvalid _ => "xselect.infrastructure.html.document"
  | .rootNoMatch _ => "xselect.application.interpreter"
  | .unalignableField => "xselect.application.interpreter"

/-- The fields of an event. -/
def fieldsOf : Event → Value.Record
  | .selectorUnparsed e => [("expression", .text e)]
  | .filterUnknown e fs => [("expression", .text e), ("filters", .list (fs.map .text))]
  | .selectorInvalid s => [("selector", .text s)]
  | .rootNoMatch r => [("root", .text r)]
  | .unalignableField => []

namespace LogLine

/-- The line of an event. -/
def ofEvent (e : Event) : LogLine := ⟨e.level, reporter e, e.name, fieldsOf e⟩

/-- The line that says how logging is configured. -/
def configured (c : Config) : LogLine :=
  ⟨.debug, "xselect.infrastructure.logging.setup", "logging_configured",
    [("log_format", .text c.logFormat.name), ("log_level", .text c.logLevel.label)]⟩

/-- The part of the program that works through the arguments. -/
def program : String := "xselect.interfaces.cli.cli"

/-- The line that shows the configuration. -/
def loaded (c : Config) : LogLine := ⟨.debug, program, "config_loaded", [("config", c.toValue)]⟩

/-- The line of a fault. -/
def failed (kind message : String) : LogLine :=
  ⟨.error, program, "extraction_failed", [("error", .text message), ("error_type", .text kind)]⟩

/-- The length from which on a text is cut. -/
def longText : Nat := 80

/-- A text, cut if it is long. -/
def cut (s : String) : String :=
  if s.length < longText then s else String.ofList (s.toList.take (longText - 3)) ++ "..."

/-- The line of a result. -/
def complete (schema : String) (result : Value) : LogLine :=
  ⟨.info, program, "extraction_complete", [("schema", .text (cut schema)), ("result_type", .text result.kind)]⟩

/-- The line as a record. -/
def toRecord (l : LogLine) : Value.Record :=
  [("event", .text l.event)] ++ l.fields ++ [("logger", .text l.logger), ("level", .text l.level.name)]

/-- The line as JSON text. -/
def jsonText (l : LogLine) : String := Json.write none (.ofRecord l.toRecord)

/-- The line for a reader at a console. -/
def consoleText (l : LogLine) : String :=
  "[" ++ l.level.name ++ "] " ++ l.event ++ " [" ++ l.logger ++ "]"
    ++ String.join (l.fields.map fun (k, v) => " " ++ k ++ "=" ++ v.display)

/-- The line in a format. -/
def text (f : LogFormat) (l : LogLine) : String :=
  match f with
  | .json => l.jsonText
  | .console => l.consoleText

end LogLine

/-- The lines of a level and above. -/
def visible (level : Level) (ls : List LogLine) : List LogLine := ls.filter fun l => level.rank ≤ l.level.rank

end Harvest.CommandLine
