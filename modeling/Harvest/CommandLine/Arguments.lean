import Harvest.Config.Basic
import Harvest.Number.Numeral
import Harvest.Text.Quoted
import Harvest.Text.Search

/-
  The arguments of the program.

  Two arguments have no name: the schema, and the page. Flags stand anywhere among them; the two are taken together from
  the first run of arguments that are no flags. A flag may be cut short as long as it is the only one that begins so, and
  its value is the next argument or stands behind an equals sign. Behind `--` there are no flags.

    1. `Mark.ofText` says what an argument is, by itself.
    2. `Arguments.read` reads all of them. Of several faults the first one met is reported; that the schema is missing
       comes after all others but what is left over.
-/
namespace Harvest.CommandLine
open Text

/-- A flag. -/
inductive Flag where
  | help
  | config
  | dotenv
  | parser
  | indent
  | noBuiltinFilters
  | logLevel
  | logFormat
  deriving DecidableEq, Repr

namespace Flag

/-- The long name of a flag. -/
def name : Flag → String
  | help => "--help"
  | config => "--config"
  | dotenv => "--dotenv"
  | parser => "--parser"
  | indent => "--indent"
  | noBuiltinFilters => "--no-builtin-filters"
  | logLevel => "--log-level"
  | logFormat => "--log-format"

/-- All flags, in order. -/
def all : List Flag := [help, config, dotenv, parser, indent, noBuiltinFilters, logLevel, logFormat]

/-- The short name of the only flag that has one. -/
def shortHelp : String := "-h"

/-- How messages call a flag. -/
def title : Flag → String
  | help => shortHelp ++ "/" ++ help.name
  | f => f.name

/-- The flag of a full name. -/
def named? (s : String) : Option Flag := if s == shortHelp then some help else all.find? (·.name == s)

/-- The flags whose names begin with a text. -/
def beginning (s : List Char) : List Flag := all.filter fun f => startsWith s f.name.toList

end Flag

/-- Why arguments cannot be read. -/
inductive UsageFault where
  | ambiguous (given : String) (flags : List Flag)
  | noValue (flag : Flag)
  /-- A value is given to a flag that has none. -/
  | extraValue (flag : Flag) (value : String)
  | notInteger (flag : Flag) (value : String)
  | notAmong (flag : Flag) (value : String) (choices : List String)
  | noSchema
  | leftOver (arguments : List String)
  deriving DecidableEq, Repr

/-- The text of a fault. -/
def UsageFault.message : UsageFault → String
  | ambiguous g fs => "ambiguous option: " ++ g ++ " could match " ++ ", ".intercalate (fs.map (·.name))
  | noValue f => "argument " ++ f.title ++ ": expected one argument"
  | extraValue f v => "argument " ++ f.title ++ ": ignored explicit argument " ++ quotedString v
  | notInteger f v => "argument " ++ f.title ++ ": invalid int value: " ++ quotedString v
  | notAmong f v cs =>
    "argument " ++ f.title ++ ": invalid choice: " ++ quotedString v ++ " (choose from "
      ++ ", ".intercalate (cs.map quotedString) ++ ")"
  | noSchema => "the following arguments are required: schema"
  | leftOver as => "unrecognized arguments: " ++ " ".intercalate as

/-- The arguments, read. -/
structure Arguments where
  schema : String := ""
  html : String := "-"
  config? : Option String := none
  dotenv? : Option String := none
  parser? : Option String := none
  indent? : Option Int := none
  noBuiltinFilters : Bool := false
  logLevel? : Option Level := none
  logFormat? : Option LogFormat := none
  deriving DecidableEq, Repr

/-! ## Single arguments -/

/-- What an argument is. -/
inductive Mark where
  | plain (text : String)
  /-- Two hyphens, behind which there are no flags. -/
  | separator
  /-- A flag, perhaps with a value behind an equals sign. -/
  | flag (f : Flag) (value : Option String)
  /-- The short name of a flag with more letters behind it. -/
  | shortHelp (tail : List Char)
  /-- What looks like a flag and is none. -/
  | unknown (text : String)
  deriving DecidableEq, Repr

namespace Mark

/-- Whether an argument is or looks like a flag. -/
def isFlag : Mark → Bool
  | plain _ => false
  | separator => false
  | _ => true

/-- The text of an argument that is no flag. -/
def text : Mark → String
  | plain s => s
  | separator => "--"
  | unknown s => s
  | flag f _ => f.name
  | shortHelp t => String.ofList ('-' :: 'h' :: t)

/-- Whether a text is a number below zero: digits, or digits with a point among or before them. -/
def isNegative (s : List Char) : Bool :=
  match s with
  | '-' :: r =>
    let r := if r.getLast? == some '\n' then r.dropLast else r
    match splitFirst '.' r with
    | (ds, none) => !ds.isEmpty && ds.all isDecimal
    | (ds, some fs) => ds.all isDecimal && !fs.isEmpty && fs.all isDecimal
  | _ => false

/-- What an argument that begins with a hyphen and is no flag is. -/
def other (s : String) : Mark := if isNegative s.toList || s.contains ' ' then .plain s else .unknown s

/-- What an argument that begins with two hyphens is, by the flags that begin as it does. -/
def long (s : String) (given : List Char) (value : Option (List Char)) : Except UsageFault Mark :=
  match Flag.beginning given with
  | [] => .ok (other s)
  | [f] => .ok (.flag f (value.map String.ofList))
  | fs => .error (.ambiguous s fs)

/-- What an argument is. -/
def ofText (s : String) : Except UsageFault Mark :=
  match s.toList with
  | '-' :: c :: r =>
    match Flag.named? s, splitFirst '=' s.toList with
    | some f, _ => .ok (.flag f none)
    | none, (given, value) =>
      match Flag.named? (String.ofList given), value with
      | some f, some v => .ok (.flag f (some (String.ofList v)))
      | _, _ =>
        if c == '-' then long s given value
        else if c == 'h' then .ok (.shortHelp r)
        else .ok (other s)
  | _ => .ok (.plain s)

/-- What arguments are. -/
def ofTexts : List String → Except UsageFault (List Mark)
  | [] => .ok []
  | s :: ss =>
    if s == "--" then .ok (.separator :: ss.map .plain)
    else do
      let m ← ofText s
      return m :: (← ofTexts ss)

end Mark

/-! ## All arguments -/

/-- What the arguments ask for. -/
inductive Request where
  | help
  | run (a : Arguments)
  deriving DecidableEq, Repr

namespace Arguments

/-- The value of a flag among choices. -/
def choose {α : Type} (f : Flag) (choices : List (String × α)) (v : String) : Except UsageFault α :=
  match choices.lookup v with
  | some a => .ok a
  | none => .error (.notAmong f v (choices.map (·.1)))

/-- A value given to a flag. -/
def set (a : Arguments) (f : Flag) (v : String) : Except UsageFault Arguments :=
  match f with
  | .config => .ok { a with config? := some v }
  | .dotenv => .ok { a with dotenv? := some v }
  | .parser => .ok { a with parser? := some v }
  | .indent =>
    match Numeral.integer? v.toList with
    | .ok i => .ok { a with indent? := some i }
    | .error _ => .error (.notInteger f v)
  | .logLevel => do return { a with logLevel? := some (← choose f Level.labels v) }
  | .logFormat => do return { a with logFormat? := some (← choose f LogFormat.names v) }
  | .help | .noBuiltinFilters => .error (.extraValue f v)

/-- Letters behind the short name of a flag without value. -/
def shortTail : List Char → Except UsageFault Unit
  | [] => .ok ()
  | ['h'] => .ok ()
  | '-' :: r => .error (.extraValue .help (String.ofList ('-' :: r)))
  | 'h' :: '=' :: r => .error (.extraValue .help (String.ofList r))
  | 'h' :: r => shortTail r
  | _ => .ok ()

/-- The arguments without name at the front: those of the schema, those of the page, and what follows. None if there is
no schema. -/
def unnamed? (ms : List Mark) : Option (String × String × List Mark) :=
  let dropSeparator : List Mark → List Mark
    | .separator :: r => r
    | r => r
  match dropSeparator ms with
  | .plain schema :: r =>
    match dropSeparator r with
    | .plain html :: r => some (schema, if html == "--" then "-" else html, dropSeparator r)
    | r => some (schema, "-", r)
  | _ => none

/-- How far arguments are read. -/
structure Progress where
  arguments : Arguments := {}
  hasSchema : Bool := false
  leftOver : List String := []

/-- The arguments without name at the front, if they are still to come. -/
def Progress.takeUnnamed (p : Progress) (ms : List Mark) : Progress × List Mark :=
  if p.hasSchema then (p, ms) else
  match unnamed? ms with
  | none => (p, ms)
  | some (schema, html, r) => ({ p with arguments := { p.arguments with schema, html }, hasSchema := true }, r)

/-- What is left over is kept. -/
def Progress.leave (p : Progress) (ms : List Mark) : Progress := { p with leftOver := p.leftOver ++ ms.map (·.text) }

/-- The end of all arguments. -/
def Progress.finish (p : Progress) (ms : List Mark) : Except UsageFault Request :=
  let (p, r) := p.takeUnnamed ms
  let p := p.leave r
  if !p.hasSchema then .error .noSchema
  else if p.leftOver.isEmpty then .ok (.run p.arguments)
  else .error (.leftOver p.leftOver)

/-- Reads arguments; the first argument bounds their number. -/
def readFrom : Nat → Progress → List Mark → Except UsageFault Request
  | 0, p, ms => p.finish ms
  | n + 1, p, ms =>
    if !ms.any (·.isFlag) then p.finish ms else
    match ms with
    | .unknown s :: r => readFrom n { p with leftOver := p.leftOver ++ [s] } r
    | .shortHelp t :: _ => (shortTail t).map fun () => .help
    | .flag f (some v) :: r => do readFrom n { p with arguments := ← p.arguments.set f v } r
    | .flag .help none :: _ => .ok .help
    | .flag .noBuiltinFilters none :: r =>
      readFrom n { p with arguments := { p.arguments with noBuiltinFilters := true } } r
    | .flag f none :: .plain v :: r => do readFrom n { p with arguments := ← p.arguments.set f v } r
    | .flag f none :: _ => .error (.noValue f)
    | ms =>
      let (q, r) := p.takeUnnamed ms
      if r.length < ms.length then readFrom n q r
      else readFrom n (p.leave (ms.takeWhile (!·.isFlag))) (ms.dropWhile (!·.isFlag))

/-- Reads the arguments of the program. -/
def read (texts : List String) : Except UsageFault Request := do
  let ms ← Mark.ofTexts texts
  readFrom ms.length {} ms

end Arguments
end Harvest.CommandLine
