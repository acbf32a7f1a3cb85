import Harvest.Value.Basic
import Harvest.Event

/-
  The configuration of the program.

  It has seven fields. Each is written under a name of its own, and all but the first two also inside a section. `toValue`
  writes a configuration in sections.
-/
namespace Harvest

/-- What the program runs for. -/
inductive Deployment where
  | dev
  | test
  | prod
  deriving DecidableEq, Repr

/-- The names of the deployments. -/
def Deployment.names : List (String × Deployment) := [("dev", .dev), ("test", .test), ("prod", .prod)]

/-- The name of a deployment. -/
def Deployment.name : Deployment → String
  | dev => "dev"
  | test => "test"
  | prod => "prod"

/-- How log lines are written. -/
inductive LogFormat where
  | json
  | console
  deriving DecidableEq, Repr

/-- The names of the formats. -/
def LogFormat.names : List (String × LogFormat) := [("json", .json), ("console", .console)]

/-- The name of a format. -/
def LogFormat.name : LogFormat → String
  | json => "json"
  | console => "console"

/-- The format of a deployment that names none. -/
def Deployment.format : Deployment → LogFormat
  | prod => .json
  | _ => .console

/-- The names under which levels are configured. -/
def Level.labels : List (String × Level) :=
  [("DEBUG", .debug), ("INFO", .info), ("WARNING", .warning), ("ERROR", .error)]

/-- The name under which a level is configured. -/
def Level.label : Level → String
  | debug => "DEBUG"
  | info => "INFO"
  | warning => "WARNING"
  | error => "ERROR"

/-- A configuration. -/
structure Config where
  appName : String
  deployment : Deployment
  logLevel : Level
  logFormat : LogFormat
  parser : String
  builtinFilters : Bool
  /-- By how much the output is indented; without it the output is one line. -/
  indent : Option Nat
  deriving DecidableEq, Repr

namespace Config

/-- A field of a configuration. -/
inductive Field where
  | appName
  | deployment
  | logLevel
  | logFormat
  | parser
  | builtinFilters
  | indent
  deriving DecidableEq, Repr

namespace Field

/-- The name of a field on its own. -/
def flat : Field → String
  | appName => "app_name"
  | deployment => "environment"
  | logLevel => "log_level"
  | logFormat => "log_format"
  | parser => "parser"
  | builtinFilters => "builtin_filters"
  | indent => "indent"

/-- The section of a field, and its name there. -/
def place? : Field → Option (String × String)
  | appName => none
  | deployment => none
  | logLevel => some ("logging", "level")
  | logFormat => some ("logging", "format")
  | parser => some ("extraction", "parser")
  | builtinFilters => some ("extraction", "builtin_filters")
  | indent => some ("output", "indent")

/-- All fields, in order. -/
def all : List Field := [appName, deployment, logLevel, logFormat, parser, builtinFilters, indent]

end Field

/-- The names of the sections. -/
def sections : List String := ["logging", "extraction", "output"]

/-- A mapping under names. -/
def table (es : List (String × Value)) : Value := .ofRecord es

/-- A number that may be missing. -/
def indentValue : Option Nat → Value
  | none => .null
  | some n => .int n

/-- A configuration in sections. -/
def toEntries (c : Config) : Entries :=
  [(.text "app_name", .text c.appName), (.text "environment", .text c.deployment.name),
   (.text "logging", table [("level", .text c.logLevel.label), ("format", .text c.logFormat.name)]),
   (.text "extraction", table [("parser", .text c.parser), ("builtin_filters", .bool c.builtinFilters)]),
   (.text "output", table [("indent", indentValue c.indent)])]

/-- A configuration in sections, as a value. -/
def toValue (c : Config) : Value := .map c.toEntries

end Config
end Harvest
