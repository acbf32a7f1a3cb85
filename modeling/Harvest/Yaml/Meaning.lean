import Harvest.Yaml.Library
import Harvest.Yaml.Node
import Harvest.Text.Casing

/-
  The values of YAML nodes.

    1. `integer`, `fraction`, `truth` and `moment` read scalars by their tags.
    2. `Node.value` is the value of a node. A mapping begins with what is merged into it, the last of several merged
       mappings first, so that entries of its own and earlier merged ones win.
    3. `Yaml.read` is the value of the one document of a text; without a document it is absence.

  Dates, times, bytes and sets are told by their kinds only.
-/
namespace Harvest.Yaml
open Text

/-! ## Scalars -/

/-- A fault of a scalar. -/
def refuse {α : Type} (f : ScalarFault) : Except Fault α := .error (.scalar f)

/-- Whether a text begins with a minus sign, and the text without its sign. -/
def unsigned : List Char → Bool × List Char
  | '-' :: s => (true, s)
  | '+' :: s => (false, s)
  | s => (false, s)

/-- The value of a digit, letters counting on from ten. -/
def digit? (c : Char) : Option Nat := (decimal? c).or (hexDigit? c)

/-- The number that digits of a base write down; none without digits. -/
def ofDigits? (base : Nat) (s : List Char) : Option Nat :=
  if s.isEmpty then none else
    s.foldl (fun n c => match n, digit? c with
      | some n, some d => if d < base then some (base * n + d) else none
      | _, _ => none) (some 0)

/-- The digits behind the mark of base eight, if it is there. -/
def withoutMark : List Char → List Char
  | '0' :: 'o' :: s => s
  | '0' :: 'O' :: s => s
  | s => s

/-- A number of a base that is a power of two. -/
def ofBase (base : Nat) (s : List Char) : Except Fault Int :=
  let (negative, body) := unsigned (trim s)
  match ofDigits? base (if base = 8 then withoutMark body else body) with
  | some n => .ok (if negative then -(n : Int) else n)
  | none => refuse (.notInteger base (String.ofList s))

/-- A number of base ten. -/
def ofTen (s : List Char) : Except Fault Int :=
  match Numeral.integer? s with
  | .ok i => .ok i
  | .error (.tooLong n) => refuse (.tooLong n)
  | .error .malformed => refuse (.notInteger 10 (String.ofList s))

/-- An integer: after its sign in base 2, 16 or 8 by its first characters, in base 60 with colons, else in base ten. Low
lines do not count. -/
def integer (text : String) : Except Fault Int := do
  let s := text.toList.filter (· != '_')
  if s.isEmpty then refuse .noNumber
  let (negative, body) := unsigned s
  let n ← match body with
    | [] => refuse .noNumber
    | ['0'] => pure 0
    | '0' :: 'b' :: r => ofBase 2 r
    | '0' :: 'x' :: r => ofBase 16 r
    | '0' :: r => ofBase 8 ('0' :: r)
    | r =>
      if r.contains ':' then return (← (cutAt ':' r).mapM ofTen).foldl (fun n d => 60 * n + d) 0
      else ofTen r
  return if negative then -n else n

/-- A double in base ten. -/
def ofPoint (s : List Char) : Except Fault Double :=
  match Numeral.double? s with
  | some x => .ok x
  | none => refuse (.notDouble (String.ofList s))

/-- The sum of digits of base 60, the lowest first, each times its power of the base. -/
def sixties : Nat → Double → List Double → Double
  | _, sum, [] => sum
  | unit, sum, x :: xs => sixties (60 * unit) (sum.add (x.mul (.ofInt unit))) xs

/-- A double: a word, a number of base 60 with colons, or one of base ten. Low lines do not count. -/
def fraction (text : String) : Except Fault Double := do
  let s := lower (text.toList.filter (· != '_'))
  if s.isEmpty then refuse .noNumber
  let (negative, body) := unsigned s
  let x ←
    if body == ".inf".toList then pure (.infinite false)
    else if body == ".nan".toList then pure .nan
    else if body.contains ':' then
      pure (sixties 1 (.zero false) (← (cutAt ':' body).mapM ofPoint).reverse)
    else ofPoint body
  return if negative then x.neg else x

/-- A truth value, in any case. -/
def truth (text : String) : Except Fault Bool :=
  let s := String.ofList (lower text.toList)
  if ["yes", "true", "on"].contains s then .ok true
  else if ["no", "false", "off"].contains s then .ok false
  else refuse (.notTruth s)

/-- The parts of a date, and of the time behind it. -/
def momentParts : Regex.Expression := Tag.expression
  ("([0-9][0-9][0-9][0-9])-([0-9][0-9]?)-([0-9][0-9]?)(?:(?:[Tt]|[ \\t]+)([0-9][0-9]?):([0-9][0-9]):([0-9][0-9])"
    ++ "(?:\\.([0-9]*))?(?:[ \\t]*(Z|([-+])([0-9][0-9]?)(?::([0-9][0-9]))?))?)?$")

/-- The number of digits that may be missing. -/
def numberOf (s : Option (List Char)) : Nat := ((s.bind Numeral.natOfDigits?).getD 0)

/-- The kind of a date, or of a date with a time. -/
def moment (text : String) : Except Fault String :=
  match momentParts.matchAt? text.toList with
  | none => refuse .notTime
  | some place =>
    match momentParts.groupTexts place with
    | [year, month, day, hour, minute, second, _, _, sign, zoneHour, zoneMinute] =>
      let date : Time.Date := ⟨numberOf year, numberOf month, numberOf day⟩
      let clock : Time.Clock := ⟨numberOf hour, numberOf minute, numberOf second⟩
      let offset : Int := 60 * numberOf zoneHour + numberOf zoneMinute
      let check : Except Time.Fault String := do
        if hour.isNone then
          date.check
          return "date"
        if sign.isSome then Time.checkOffset (if sign == some ['-'] then -offset else offset)
        date.check
        clock.check
        return "datetime"
      check.mapError fun f => Fault.scalar (.time f)
    | _ => refuse .notTime

/-- A character of base 64. -/
def isSixtyFour (c : Char) : Bool := c.isAlphanum || c == '+' || c == '/'

/-- Whether characters of base 64 come in groups of four: `place` is the place in the group and `pads` the number of
signs that fill it up. Other characters do not count, and nothing counts behind a group that was filled up. -/
def isFilled : Nat → Nat → List Char → Bool
  | place, _, [] => place == 0
  | place, pads, c :: s =>
    if c == '=' then
      if 2 ≤ place && 4 ≤ place + pads + 1 then true else isFilled place (if 2 ≤ place then pads + 1 else pads) s
    else if isSixtyFour c then isFilled ((place + 1) % 4) 0 s
    else isFilled place pads s

/-- The kind of bytes in base 64. -/
def bytes (text : String) : Except Fault String :=
  if text.toList.all (·.toNat < 0x80) && isFilled 0 0 text.toList then .ok "bytes" else .error .value

/-- The value of a scalar. -/
def scalarValue (text : String) : Tag → Except Fault Value
  | .null => .ok .null
  | .str => .ok (.text text)
  | .int => (integer text).map .int
  | .float => (fraction text).map .real
  | .bool => (truth text).map .bool
  | .timestamp => (moment text).map .other
  | .binary => (bytes text).map .other
  | _ => .error .value

/-! ## Collections -/

/-- Whether a value can be a key. -/
def isKey : Value → Bool
  | .list _ | .map _ => false
  | .other k => k != "set" && !collectionKinds.contains k
  | _ => true

namespace Node

/-- The tag of a node. -/
def tag : Node → Tag
  | scalar t _ => t
  | sequence t _ => t
  | mapping t _ => t
  | inside _ isMapping => if isMapping then .map else .seq

/-- The tag of a key of a mapping, where the sign for the value as a whole is a text. -/
def keyTag (t : Tag) : Tag := if t = .value then .str else t

mutual

/-- The text of a scalar, or of the value as a whole of a mapping. -/
def text : Node → Except Fault String
  | scalar _ s => .ok s
  | mapping _ es => wholeText es
  | _ => .error .value

/-- The text of the value as a whole. -/
def wholeText : List (Node × Node) → Except Fault String
  | [] => .error .value
  | (k, v) :: es => if k.tag = .value then v.text else wholeText es

end

mutual

/-- The value of a node. -/
def value : Node → Except Fault Value
  | scalar t s => scalarValue s t
  | sequence t items =>
    match t with
    | .seq => (values items).map .list
    | .omap | .pairs => (pairs items).map .list
    | _ => .error .value
  | mapping t es =>
    match t with
    | .map => (entries es).map fun (merged, own) => .map (Value.putAll [] (merged ++ own))
    | .set => (entries es).map fun _ => .other "set"
    | t => do scalarValue (← wholeText es) t
  | inside _ isMapping => .ok (.other (collectionKind isMapping))

/-- The values of nodes. -/
def values : List Node → Except Fault (List Value)
  | [] => .ok []
  | n :: ns => do return (← n.value) :: (← values ns)

/-- Mappings of one entry as pairs. -/
def pairs : List Node → Except Fault (List Value)
  | [] => .ok []
  | mapping _ [(k, v)] :: ns => do return .tuple [← k.value, ← v.value] :: (← pairs ns)
  | _ :: _ => .error .value

/-- The entries that are merged into a mapping, and its own. -/
def entries : List (Node × Node) → Except Fault (Entries × Entries)
  | [] => .ok ([], [])
  | (k, v) :: es => do
    if k.tag = .merge then
      let first ← merged v
      let (more, own) ← entries es
      return (first ++ more, own)
    else
      let key ← keyValue k
      if !isKey key then throw .value
      let x ← v.value
      let (more, own) ← entries es
      return (more, (key, x) :: own)

/-- The value of a key. -/
def keyValue : Node → Except Fault Value
  | scalar t s => scalarValue s (keyTag t)
  | sequence t items =>
    match t with
    | .seq => (values items).map .list
    | .omap | .pairs => (pairs items).map .list
    | _ => .error .value
  | mapping t es =>
    match t with
    | .map => (entries es).map fun _ => .map []
    | .set => (entries es).map fun _ => .other "set"
    | t => do scalarValue (← wholeText es) t
  | inside _ isMapping => .ok (.other (collectionKind isMapping))

/-- The entries of a mapping, or of several, that are to be merged. -/
def merged : Node → Except Fault Entries
  | mapping _ es => (entries es).map fun (more, own) => more ++ own
  | sequence _ ns => mergedAll ns
  | _ => .error .value

/-- The entries of several mappings, the last one first. -/
def mergedAll : List Node → Except Fault Entries
  | [] => .ok []
  | mapping _ es :: ns => do
    let (more, own) ← entries es
    return (← mergedAll ns) ++ more ++ own
  | _ :: _ => .error .value

end
end Node

/-- The value that a text writes down. -/
def read (s : String) : Except Fault Value := do
  match ← Node.ofTokens (Token.ofText s.toList) with
  | none => return .null
  | some n => n.value

instance : Library where
  read := read

end Harvest.Yaml
