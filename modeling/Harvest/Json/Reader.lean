import Harvest.Value.Basic
import Harvest.Number.Numeral
import Harvest.Text.Search

/-
  Reading JSON.

  An object becomes a mapping with its entries in order; of entries with one name the first gives the place and the last
  the value. The words `NaN`, `Infinity` and `-Infinity` are numbers too. Integers have at most as many digits as
  `Numeral.maxDigits`.

    1. `Json.read` reads a text that holds one value and, around it, blanks.
    2. A fault says what is wrong and at which `Place`.

  Readers take the text that is left and give what they read with the text behind it.
-/
namespace Harvest.Json
open Text

/-! ## Faults -/

/-- What is wrong at a place. -/
inductive Problem where
  | byteOrderMark
  | noValue
  | noName
  | noColon
  | noComma
  | control
  | unterminated
  | badEscape
  | badCodeUnit
  | moreText
  deriving DecidableEq, Repr

/-- The text of a problem. -/
def Problem.message : Problem → String
  | byteOrderMark => "Unexpected UTF-8 BOM (decode using utf-8-sig)"
  | noValue => "Expecting value"
  | noName => "Expecting property name enclosed in double quotes"
  | noColon => "Expecting ':' delimiter"
  | noComma => "Expecting ',' delimiter"
  | control => "Invalid control character at"
  | unterminated => "Unterminated string starting at"
  | badEscape => "Invalid \\escape"
  | badCodeUnit => "Invalid \\uXXXX escape"
  | moreText => "Extra data"

/-- A place in a text: line and column count from one, the offset from zero. -/
structure Place where
  line : Nat
  column : Nat
  offset : Nat
  deriving DecidableEq, Repr

/-- The place behind a text. -/
def Place.behind (s : List Char) : Place :=
  ⟨s.count '\n' + 1, (s.reverse.takeWhile (· != '\n')).length + 1, s.length⟩

/-- Why a text is no JSON, or none that can be held. -/
inductive Fault where
  | malformed (problem : Problem) (place : Place)
  | tooLong (digits : Nat)
  deriving DecidableEq, Repr

/-- The text of a fault. -/
def Fault.message : Fault → String
  | malformed p l => p.message ++ ": line " ++ toString l.line ++ " column " ++ toString l.column ++ " (char "
      ++ toString l.offset ++ ")"
  | tooLong n => Numeral.tooLongMessage n

/-- A fault met on the way, with the text that is left where it is met. -/
inductive Stop where
  | problem (p : Problem) (left : List Char)
  | tooLong (digits : Nat)

/-- What a reader gives. -/
abbrev Reading (α : Type) := Except Stop (α × List Char)

/-- Stops with a problem. -/
def stop {α : Type} (p : Problem) (left : List Char) : Reading α := .error (.problem p left)

/-- The fault that a stop in a text amounts to. -/
def Stop.fault (whole : List Char) : Stop → Fault
  | problem p left => .malformed p (.behind (whole.take (whole.length - left.length)))
  | tooLong n => .tooLong n

/-! ## Blanks and words -/

/-- A blank of JSON. -/
def isSpace (c : Char) : Bool := c == ' ' || c == '\t' || c == '\n' || c == '\r'

/-- Without the blanks in front. -/
def skip (s : List Char) : List Char := s.dropWhile isSpace

/-- The words that are values. -/
def words : List (List Char × Value) :=
  [("null".toList, .null), ("true".toList, .bool true), ("false".toList, .bool false), ("NaN".toList, .real .nan),
   ("Infinity".toList, .real (.infinite false)), ("-Infinity".toList, .real (.infinite true))]

/-- The word in front, as its value. -/
def word? (s : List Char) : Option (Value × List Char) :=
  words.findSome? fun (w, v) => (dropText? w s).map (v, ·)

/-! ## Strings -/

/-- The value of a hexadecimal digit. -/
def hexDigit? (c : Char) : Option Nat :=
  let n := c.toNat
  if 48 ≤ n && n ≤ 57 then some (n - 48)
  else if 97 ≤ n && n ≤ 102 then some (n - 87)
  else if 65 ≤ n && n ≤ 70 then some (n - 55)
  else none

/-- The code unit that four hexadecimal digits write down. -/
def codeUnit? (a b c d : Char) : Option Nat := do
  return ((((← hexDigit? a) * 16 + (← hexDigit? b)) * 16 + (← hexDigit? c)) * 16 + (← hexDigit? d))

/-- The character that a letter behind a backslash stands for. -/
def escape? : Char → Option Char
  | '"' => some '"'
  | '\\' => some '\\'
  | '/' => some '/'
  | 'b' => some '\x08'
  | 'f' => some '\x0c'
  | 'n' => some '\n'
  | 'r' => some '\r'
  | 't' => some '\t'
  | _ => none

/-- The code units of a string up to the closing quote; `start` is the text from the opening quote on. Behind the four
digits of a code unit something has to follow. -/
def codeUnits (start : List Char) : List Char → Reading (List Nat)
  | '"' :: s => .ok ([], s)
  | '\\' :: 'u' :: a :: b :: c :: d :: s =>
    match codeUnit? a b c d, s with
    | some n, _ :: _ => (codeUnits start s).map fun (ns, r) => (n :: ns, r)
    | _, _ => stop .badCodeUnit ('u' :: a :: b :: c :: d :: s)
  | '\\' :: 'u' :: s => stop .badCodeUnit ('u' :: s)
  | '\\' :: c :: s =>
    match escape? c with
    | some d => (codeUnits start s).map fun (ns, r) => (d.toNat :: ns, r)
    | none => stop .badEscape ('\\' :: c :: s)
  | c :: s =>
    if c == '\\' then stop .unterminated start
    else if c.toNat < 0x20 then stop .control (c :: s)
    else (codeUnits start s).map fun (ns, r) => (c.toNat :: ns, r)
  | [] => stop .unterminated start

/-- The first half of a pair of code units. -/
def isHigh (n : Nat) : Bool := 0xd800 ≤ n && n ≤ 0xdbff

/-- The second half of a pair of code units. -/
def isLow (n : Nat) : Bool := 0xdc00 ≤ n && n ≤ 0xdfff

/-- The character of a code unit on its own; half a pair is replaced. -/
def single (n : Nat) : Char := if isHigh n || isLow n then '\ufffd' else Char.ofNat n

/-- The characters of code units; `high` is a first half that still waits for the second. -/
def joinUnits : Option Nat → List Nat → List Char
  | none, [] => []
  | some h, [] => [single h]
  | none, n :: ns => if isHigh n then joinUnits (some n) ns else single n :: joinUnits none ns
  | some h, n :: ns =>
    if isLow n then Char.ofNat (0x10000 + (h - 0xd800) * 0x400 + (n - 0xdc00)) :: joinUnits none ns
    else if isHigh n then single h :: joinUnits (some n) ns
    else single h :: single n :: joinUnits none ns

/-- A string, its opening quote taken off. -/
def string (s : List Char) : Reading String :=
  (codeUnits ('"' :: s) s).map fun (ns, r) => (String.ofList (joinUnits none ns), r)

/-! ## Numbers -/

/-- A digit of base ten, of ASCII alone. -/
def isNumeral (c : Char) : Bool := '0' ≤ c && c ≤ '9'

/-- A sign, if there is one. -/
def minus : List Char → List Char × List Char
  | '-' :: s => (['-'], s)
  | s => ([], s)

/-- The whole part: a zero, or digits that begin with none. -/
def whole? : List Char → Option (List Char × List Char)
  | '0' :: s => some (['0'], s)
  | c :: s => if isNumeral c then some (c :: s.takeWhile isNumeral, s.dropWhile isNumeral) else none
  | [] => none

/-- A point with digits behind it, if they are there. -/
def fraction : List Char → List Char × List Char
  | '.' :: s =>
    match s.takeWhile isNumeral with
    | [] => ([], '.' :: s)
    | ds => ('.' :: ds, s.dropWhile isNumeral)
  | s => ([], s)

/-- The sign of an exponent, if there is one. -/
def exponentSign : List Char → List Char × List Char
  | '-' :: s => (['-'], s)
  | '+' :: s => (['+'], s)
  | s => ([], s)

/-- An exponent with its digits, if they are there. -/
def exponent : List Char → List Char × List Char
  | [] => ([], [])
  | c :: s =>
    if c == 'e' || c == 'E' then
      let (sign, r) := exponentSign s
      match r.takeWhile isNumeral with
      | [] => ([], c :: s)
      | ds => (c :: (sign ++ ds), r.dropWhile isNumeral)
    else ([], c :: s)

/-- A number: an integer, or a double if it has a fraction or an exponent. -/
def number (s : List Char) : Reading Value :=
  let (sign, r) := minus s
  match whole? r with
  | none => stop .noValue s
  | some (ds, r) =>
    let (f, r) := fraction r
    let (e, r) := exponent r
    if f.isEmpty && e.isEmpty then
      match Numeral.integer? (sign ++ ds) with
      | .ok i => .ok (.int i, r)
      | .error (.tooLong n) => .error (.tooLong n)
      | .error .malformed => stop .noValue s
    else
      match Numeral.double? (sign ++ ds ++ f ++ e) with
      | some x => .ok (.real x, r)
      | none => stop .noValue s

/-- A word or a number. -/
def scalar (s : List Char) : Reading Value :=
  match word? s with
  | some r => .ok r
  | none => number s

/-! ## Values -/

/-- What stands behind a colon. -/
def afterColon (s : List Char) : Reading Unit :=
  match skip s with
  | ':' :: r => .ok ((), skip r)
  | r => stop .noColon r

mutual

/-- A value. The first argument bounds how often readers call each other. -/
def value : Nat → List Char → Reading Value
  | _ + 1, '"' :: s => (string s).map fun (t, r) => (.text t, r)
  | n + 1, '\x7b' :: s =>
    match skip s with
    | '\x7d' :: r => .ok (.map [], r)
    | r => (entries n [] r).map fun (es, r) => (.map es, r)
  | n + 1, '[' :: s =>
    match skip s with
    | ']' :: r => .ok (.list [], r)
    | r => (items n r).map fun (vs, r) => (.list vs, r)
  | _, s => scalar s

/-- The entries of an object up to its closing brace, put to those read before. -/
def entries : Nat → Entries → List Char → Except Stop (Entries × List Char)
  | n + 1, es, '"' :: s => do
    let (name, r) ← string s
    let ((), r) ← afterColon r
    let (v, r) ← value n r
    let es := Value.put (.text name) v es
    match skip r with
    | '\x7d' :: r => .ok (es, r)
    | ',' :: r => entries n es (skip r)
    | r => stop .noComma r
  | _, _, s => stop .noName s

/-- The items of an array up to its closing bracket. -/
def items : Nat → List Char → Except Stop (List Value × List Char)
  | n + 1, s => do
    let (v, r) ← value n s
    match skip r with
    | ']' :: r => .ok ([v], r)
    | ',' :: r =>
      let (vs, r) ← items n (skip r)
      .ok (v :: vs, r)
    | r => stop .noComma r
  | 0, s => stop .noValue s

end

/-- The one value of a text. -/
def whole (s : List Char) : Except Stop Value :=
  match value (2 * s.length + 2) (skip s) with
  | .error e => .error e
  | .ok (v, r) => if (skip r).isEmpty then .ok v else .error (.problem .moreText (skip r))

/-- The value that a text writes down. -/
def read (s : String) : Except Fault Value :=
  let r := match s.toList with
    | '\ufeff' :: cs => Except.error (Stop.problem .byteOrderMark ('\ufeff' :: cs))
    | cs => whole cs
  r.mapError (Stop.fault s.toList)

end Harvest.Json
