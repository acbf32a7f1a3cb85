import Harvest.Config.Basic
import Harvest.Time.Instant

/-
  How log lines are handled.

  All lines go to the error output through one handler. A line passes a chain of processors, the last of which renders it
  as the configuration asks for; lines of other libraries pass a chain of their own before that.

    1. `Logging.Setup.ofConfig` is the setup of a configuration: its level holds for every logger.
    2. `Logging.stamp` gives a line of another library the time at which it was made.
-/
namespace Harvest.Logging

/-- A step on the way of a line. -/
inductive Processor where
  | mergeContext
  | stampRecord
  | addLogger
  | addLevel
  | dropInternals
  | render (format : LogFormat)
  deriving DecidableEq, Repr

/-- The name of a processor. -/
def Processor.name : Processor → String
  | mergeContext => "merge_contextvars"
  | stampRecord => "_add_record_created_timestamp_utc"
  | addLogger => "add_logger_name"
  | addLevel => "add_log_level"
  | dropInternals => "remove_processors_meta"
  | render .json => "JSONRenderer"
  | render .console => "ConsoleRenderer"

/-- A logger: where its lines go, from which level on, and whether the loggers above get them too. -/
structure Logger where
  handlers : List String
  level : Level
  propagates : Option Bool := none
  deriving DecidableEq, Repr

/-- A handler that writes to a stream. -/
structure Handler where
  type : String
  stream : String
  formatter : Option String := none
  deriving DecidableEq, Repr

/-- What formats lines: the chain of lines from elsewhere, and the chain of all. -/
structure Formatter where
  type : String
  foreign : List Processor
  processors : List Processor
  deriving DecidableEq, Repr

/-- A setup of logging. -/
structure Setup where
  handlers : List (String × Handler)
  loggers : List (String × Logger)
  root : Option Logger := none
  formatter : Option Formatter := none
  deriving DecidableEq, Repr

namespace Setup

/-- The name of the only handler. -/
def handler : String := "default"

/-- What every setup begins with. -/
def base : Setup where
  handlers := [(handler, { type := "logging.StreamHandler", stream := "ext://sys.stderr" })]
  loggers := [("xselect", { handlers := [handler], level := .info, propagates := some false })]

/-- The formatter of a format. -/
def formatterOf (f : LogFormat) : Formatter where
  type := "ProcessorFormatter"
  foreign := [.mergeContext, .stampRecord, .addLogger, .addLevel]
  processors := [.dropInternals, .render f]

/-- The setup of a configuration. -/
def ofConfig (c : Config) : Setup where
  handlers := base.handlers.map fun (n, h) => (n, { h with formatter := some "structlog" })
  loggers := base.loggers.map fun (n, l) => (n, { l with level := c.logLevel })
  root := some { handlers := [handler], level := c.logLevel }
  formatter := some (formatterOf c.logFormat)

end Setup

/-! ## Setups as values -/

/-- Texts as a list. -/
def names (ns : List String) : Value := .list (ns.map .text)

/-- A logger as a value. -/
def Logger.toValue (l : Logger) : Value :=
  .ofRecord ([("handlers", names l.handlers), ("level", .text l.level.label)]
    ++ (l.propagates.map fun b => ("propagate", Value.bool b)).toList)

/-- A handler as a value. -/
def Handler.toValue (h : Handler) : Value :=
  .ofRecord ([("class", .text h.type), ("stream", .text h.stream)]
    ++ (h.formatter.map fun f => ("formatter", Value.text f)).toList)

/-- A setup as a record. -/
def Setup.toRecord (s : Setup) : Value.Record :=
  [("version", .int 1), ("disable_existing_loggers", .bool false),
   ("handlers", .ofRecord (s.handlers.map fun (n, h) => (n, h.toValue))),
   ("loggers", .ofRecord (s.loggers.map fun (n, l) => (n, l.toValue)))]
  ++ (s.root.map fun r => ("root", r.toValue)).toList
  ++ (match s.formatter with
    | none => []
    | some f => [("formatter", .text f.type), ("foreign_pre_chain", names (f.foreign.map (·.name))),
        ("processors", names (f.processors.map (·.name)))])

/-- The level of a logger of a setup. -/
def Setup.levelOf? (s : Setup) (logger : String) : Option Level := (s.loggers.lookup logger).map (·.level)

/-! ## Stamps -/

/-- The key under which a line keeps the record that it was made from. -/
def recordKey : Value := .text "_record"

/-- The key of the time of a line. -/
def timestampKey : Value := .text "timestamp"

/-- The kind of records. -/
def recordKind : String := "LogRecord"

/-- The instant of a number of seconds. -/
def instant (created : Value) : Except Time.Fault Time.Instant :=
  match created with
  | .int i => Time.Instant.ofInt i
  | .bool b => Time.Instant.ofInt (if b then 1 else 0)
  | .real x => Time.Instant.ofDouble x
  | _ => .error .range

/-- A line made from a record. -/
def withRecord (line : Entries) : Entries := Value.put recordKey (.other recordKind) line

/-- Whether a line was made from a record. -/
def hasRecord (line : Entries) : Bool :=
  match Value.find? recordKey line with
  | some (.other k) => k == recordKind
  | _ => false

/-- A line with the time at which its record was created, unless it has a time or no record. -/
def stamp (created : Value) (line : Entries) : Except Time.Fault Entries :=
  if hasRecord line && (Value.find? timestampKey line).isNone then do
    return Value.put timestampKey (.text (← (← instant created).text)) line
  else .ok line

end Harvest.Logging
