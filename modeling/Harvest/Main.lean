import Harvest.CommandLine.Run

/-
  The program at the command line: it reads the files that the arguments name, runs, and writes what the run leaves.
-/
namespace Harvest.CommandLine

/-- The bytes of a file, if it can be read. -/
def bytes? (path : String) : IO (Option ByteArray) := do
  try return some (← IO.FS.readBinFile path) catch _ => return none

/-- The file that an argument names, if it can be read. -/
def fileOf (path : Option String) : IO Files := do
  match path with
  | none => return []
  | some p =>
    match ← bytes? p with
    | none => return []
    | some b => return [(Path.ofText p, b)]

/-- The files that arguments name. -/
def filesOf (a : Arguments) : IO Files := do
  let paths := [a.config?, a.dotenv?, some a.schema, some a.html]
  return (← paths.mapM fileOf).flatten

/-- The variables of the process. -/
def variablesOf : IO Environment := do
  let text := ((← bytes? "/proc/self/environ").bind String.fromUTF8?).getD ""
  return (Text.cutAt '\x00' text.toList).filterMap fun line =>
    match Text.splitFirst '=' line with
    | (n, some v) => some (String.ofList n, String.ofList v)
    | _ => none

/-- What is left of a stream. -/
partial def readAll (stream : IO.FS.Stream) (read : ByteArray) : IO ByteArray := do
  let more ← stream.read 65536
  if more.isEmpty then return read else readAll stream (read ++ more)

/-- The text of the input. -/
def inputOf (a : Arguments) : IO String := do
  if a.html != inputName then return ""
  return (String.fromUTF8? (← readAll (← IO.getStdin) .empty)).getD ""

/-- What the program finds around it. -/
def surroundingsOf (arguments : List String) : IO Surroundings := do
  match Arguments.read arguments with
  | .ok (.run a) =>
    return { files := ← filesOf a, environment := ← variablesOf, input := ← inputOf a }
  | _ => return {}

/-- Writes what a run leaves and gives its exit code. -/
def report (o : Outcome) : IO UInt32 := do
  for l in o.logs do IO.eprintln (l.text o.format)
  for e in o.errors do IO.eprintln e
  IO.print o.output
  match o.ending with
  | .exit code => return code.toUInt32
  | .usage code => return code.toUInt32
  | .crash kind message =>
    IO.eprintln (kind ++ ": " ++ message)
    return 1

end Harvest.CommandLine

/-- The program. -/
def main (arguments : List String) : IO UInt32 := do
  Harvest.CommandLine.report (Harvest.CommandLine.run arguments (← Harvest.CommandLine.surroundingsOf arguments))
