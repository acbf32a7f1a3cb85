import Harvest.Text.Blank
import Harvest.Text.Search

/-
  Environment variables, and the files that add to them.

  A file binds one name a line: `NAME=value`, perhaps behind `export`, with the value plain, in single quotes or in
  double quotes, and with comments behind a number sign. In a value, `${NAME}` and `${NAME:-text}` stand for the variable of
  that name. A line that does not fit is left out as far as it goes.

    1. `Dotenv.bindings` lists the bindings of a file.
    2. `Dotenv.expand` puts variables in. A variable of the process wins over one of the file.
    3. `Dotenv.load` adds the variables that the process lacks.
-/
namespace Harvest

/-- Environment variables, in order. -/
abbrev Environment := List (String × String)

namespace Dotenv
open Text

/-! ## Reading -/

/-- A blank inside a line. -/
def isInline (c : Char) : Bool := isBlank c && c != '\n' && c != '\r'

/-- What a reader gives; where it fails, the text that is left. -/
abbrev Reading (α : Type) := Except (List Char) (α × List Char)

/-- Without the blanks of the line in front. -/
def skipInline (s : List Char) : List Char := s.dropWhile isInline

/-- Whether a character ends a line. -/
def isLineEnd (c : Char) : Bool := c == '\n' || c == '\r'

/-- What follows the line in front. -/
def skipLine (s : List Char) : List Char :=
  match s.dropWhile (!isLineEnd ·) with
  | _ :: r => r
  | [] => []

/-- What follows `export`, if that stands in front with a blank behind. -/
def skipExport (s : List Char) : List Char :=
  match dropText? "export".toList s with
  | some (c :: r) => if isInline c then skipInline r else s
  | _ => s

/-- A character of a name without quotes. -/
def isNameChar (c : Char) : Bool := c != '=' && c != '#' && !isBlank c

/-- A name; none in front of a comment. -/
def name (s : List Char) : Reading (Option String) :=
  match s with
  | '#' :: _ => .ok (none, s)
  | '\'' :: r =>
    match r.takeWhile (· != '\''), r.dropWhile (· != '\'') with
    | n@(_ :: _), _ :: r => .ok (some (String.ofList n), r)
    | _, _ => .error s
  | _ =>
    match s.takeWhile isNameChar with
    | [] => .error s
    | n => .ok (some (String.ofList n), s.dropWhile isNameChar)

/-- The text up to the first quote that has no backslash before it, and what follows. -/
def upToQuote? (quote : Char) : List Char → Option (List Char × List Char)
  | [] => none
  | '\\' :: c :: s =>
    if c == quote then (upToQuote? quote s).map fun (t, r) => ('\\' :: c :: t, r)
    else (upToQuote? quote (c :: s)).map fun (t, r) => ('\\' :: t, r)
  | c :: s => if c == quote then some ([], s) else (upToQuote? quote s).map fun (t, r) => (c :: t, r)
termination_by s => s.length

/-- The text up to the last quote, which then has a backslash before it. -/
def upToLast? (quote : Char) (s : List Char) : Option (List Char × List Char) := splitLast quote s

/-- A text in quotes, from behind the opening one. A backslash keeps a quote from closing it as long as another one
closes it later. -/
def inQuotes (quote : Char) (s : List Char) : Reading (List Char) :=
  match upToQuote? quote s, upToLast? quote s with
  | some r, _ => .ok r
  | none, some r => .ok r
  | none, none => .error (quote :: s)

/-- What a letter behind a backslash stands for between double quotes. -/
def escape? : Char → Option Char
  | '\\' => some '\\'
  | '\'' => some '\''
  | '"' => some '"'
  | 'a' => some '\x07'
  | 'b' => some '\x08'
  | 'f' => some '\x0c'
  | 'n' => some '\n'
  | 'r' => some '\r'
  | 't' => some '\t'
  | 'v' => some '\x0b'
  | _ => none

/-- What a letter behind a backslash stands for between single quotes. -/
def singleEscape? (c : Char) : Option Char := if c == '\\' || c == '\'' then some c else none

/-- A text with its escapes replaced. -/
def unescape (escape? : Char → Option Char) : List Char → List Char
  | '\\' :: c :: s =>
    match escape? c with
    | some d => d :: unescape escape? s
    | none => '\\' :: unescape escape? (c :: s)
  | c :: s => c :: unescape escape? s
  | [] => []
termination_by s => s.length

/-- A text up to a comment, which begins with a number sign behind a blank; `afterBlank` says that one stands before. -/
def beforeComment (afterBlank : Bool) : List Char → List Char
  | [] => []
  | c :: s => if afterBlank && c == '#' then [] else c :: beforeComment (isBlank c) s

/-- A value. -/
def value (s : List Char) : Reading String :=
  match s with
  | '\'' :: r => (inQuotes '\'' r).map fun (t, r) => (String.ofList (unescape singleEscape? t), r)
  | '"' :: r => (inQuotes '"' r).map fun (t, r) => (String.ofList (unescape escape? t), r)
  | _ =>
    let line := s.takeWhile (!isLineEnd ·)
    .ok (String.ofList (trimRight (beforeComment false line)), s.dropWhile (!isLineEnd ·))

/-- The value behind an equals sign; nothing without one. -/
def valuePart (s : List Char) : Reading (Option String) :=
  match skipInline s with
  | '=' :: r => (value (skipInline r)).map fun (v, r) => (some v, r)
  | r => .ok (none, r)

/-- Without the comment in front. -/
def skipComment (s : List Char) : List Char :=
  match skipInline s with
  | '#' :: r => r.dropWhile (!isLineEnd ·)
  | _ => s

/-- The end of a line. -/
def lineEnd (s : List Char) : Reading Unit :=
  match skipInline s with
  | [] => .ok ((), [])
  | '\r' :: '\n' :: r => .ok ((), r)
  | c :: r => if isLineEnd c then .ok ((), r) else .error s

/-- A name with its value, if it has one. -/
abbrev Binding := String × Option String

/-- A line: a binding, or nothing. -/
def line (s : List Char) : Except (List Char) (Option Binding × List Char) := do
  let (n, r) ← name (skipExport s)
  let (v, r) ← valuePart r
  let ((), r) ← lineEnd (skipComment r)
  return (n.map (·, v), r)

/-- The bindings of a text; the first argument bounds the number of lines. -/
def bindingsFrom : Nat → List Char → List Binding
  | 0, _ => []
  | n + 1, s =>
    match s.dropWhile isBlank with
    | [] => []
    | r =>
      match line r with
      | .ok (b, r) => b.toList ++ bindingsFrom n r
      | .error r => bindingsFrom n (skipLine r)

/-- The bindings of a text, in order. -/
def bindings (s : String) : List Binding := bindingsFrom s.length s.toList

/-! ## Variables -/

/-- A variable in front, from behind its dollar sign: its name, what stands for it if it is missing, and what follows. -/
def reference? (s : List Char) : Option (String × String × List Char) :=
  match s with
  | '\x7b' :: r =>
    let isName (c : Char) : Bool := c != '\x7d' && c != ':'
    let n := String.ofList (r.takeWhile isName)
    match r.dropWhile isName with
    | '\x7d' :: r => some (n, "", r)
    | ':' :: '-' :: r =>
      match r.dropWhile (· != '\x7d') with
      | _ :: t => some (n, String.ofList (r.takeWhile (· != '\x7d')), t)
      | [] => none
    | _ => none
  | _ => none

/-- A text with variables put in; the first argument bounds its length. -/
def expandFrom (get? : String → Option String) : Nat → List Char → List Char
  | 0, s => s
  | _, [] => []
  | n + 1, c :: s =>
    if c == '$' then
      match reference? s with
      | some (name, standard, r) => ((get? name).getD standard).toList ++ expandFrom get? n r
      | none => c :: expandFrom get? n s
    else c :: expandFrom get? n s

/-- The value of a name: of the process, or of the bindings so far, where a name without value has the empty text. -/
def lookup (process : Environment) (so : List Binding) (name : String) : Option String :=
  match process.lookup name with
  | some v => some v
  | none => (so.lookup name).map (·.getD "")

/-- A value put under a name, in its place or at the end. -/
def bind (so : List Binding) (b : Binding) : List Binding :=
  if so.any (·.1 == b.1) then so.map fun (n, v) => (n, if n == b.1 then b.2 else v) else so ++ [b]

/-- Bindings with variables put in, each from those before it. -/
def expand (process : Environment) (bs : List Binding) : List Binding :=
  bs.foldl (fun so (n, v) =>
    bind so (n, v.map fun t => String.ofList (expandFrom (lookup process so) t.length t.toList))) []

/-! ## Loading -/

/-- Why a variable cannot be set. -/
inductive Fault where
  | nullCharacter
  | nameWithEquals
  deriving DecidableEq, Repr

/-- The text of a fault. -/
def Fault.message : Fault → String
  | nullCharacter => "embedded null byte"
  | nameWithEquals => "illegal environment variable name"

/-- A variable set, unless the process has it or it has no value. -/
def set (e : Environment) (b : Binding) : Except Fault Environment :=
  match b with
  | (_, none) => .ok e
  | (n, some v) =>
    if e.any (·.1 == n) then .ok e
    else if n.contains '\x00' || v.contains '\x00' then .error .nullCharacter
    else if n.contains '=' then .error .nameWithEquals
    else .ok (e ++ [(n, v)])

/-- The variables of a process with those that a file adds. -/
def load (process : Environment) (text : String) : Except Fault Environment :=
  (expand process (bindings text)).foldlM set process

end Dotenv
end Harvest
