import Harvest.Filter.Basic
import Harvest.Filter.Size

/-
  The filters of the library.

    1. Text: `trim`, `squish`, `upper`, `lower`, `split`, `replace`, `prefixed`, `suffixed`.
    2. Numbers: `digits` keeps the digits of a text and reads them; `bytes` reads a size.
    3. Addresses: `absolute`, `stripScheme`, `secure`.
    4. `fallback` puts a text in place of absence and of the empty text.
  `standard` lists them under the names that expressions use.
-/
namespace Harvest.Filter
open Harvest.Text

/-- The argument at a position, or a text that stands for it. -/
def argument (args : List String) (i : Nat) (missing : String) : List Char := (args.getD i missing).toList

/-- Characters as a text value. -/
def textValue (s : List Char) : Value := .text (String.ofList s)

/-- Without blanks at the ends. -/
def trim : Filter := ofText ⟨"trim", [], 0⟩ fun s _ => .ok (textValue (Text.trim s))

/-- One space between words. -/
def squish : Filter := ofText ⟨"squish", [], 0⟩ fun s _ => .ok (textValue (Text.squish s))

/-- In upper case. -/
def upper : Filter := ofText ⟨"upper", [], 0⟩ fun s _ => .ok (textValue (Text.upper s))

/-- In lower case. -/
def lower : Filter := ofText ⟨"lower", [], 0⟩ fun s _ => .ok (textValue (Text.lower s))

/-- The number that digits write down, as a value. -/
def numberOf (ds : List Char) : Except FilterFault Value :=
  match Numeral.natural? ds with
  | .ok n => .ok (.int n)
  | .error e => .error (.number e (String.ofList ds))

/-- The number that the digits of a text write down, other characters left out; absence if there are no digits. -/
def numberIn (s : List Char) : Except FilterFault Value :=
  let ds := s.filter isDigit
  if ds.isEmpty then .ok .null else numberOf ds

/-- Integers stay, truth values vanish, and of any other value the digits count. -/
def digits : Filter := ofValue ⟨"to_int", [], 0⟩ fun v _ =>
  match v with
  | .null | .bool _ => .ok .null
  | .int i => .ok (.int i)
  | v => numberIn v.display.toList

/-- The number of bytes of an amount in units of some bytes, any fraction dropped; absence if the amount is no
numeral. -/
def bytesOf (amount : List Char) (factor : Nat) : Except FilterFault Value :=
  match Numeral.double? amount with
  | none => .ok .null
  | some x =>
    match (x.mul (Double.ofInt factor)).truncate? with
    | some i => .ok (.int i)
    | none => .error .infiniteSize

/-- The size that a text gives in bytes: digits alone, or the first size in it. -/
def sizeIn (s : List Char) : Except FilterFault Value :=
  let t := Text.trim s
  if !t.isEmpty && t.all isDigit then numberOf t else
  match Size.find? (Text.upper t) with
  | none => .ok .null
  | some (amount, unit) => bytesOf amount (Size.factor unit)

/-- A size in bytes. -/
def bytes : Filter := ofValue ⟨"to_bytes", [], 0⟩ fun v _ => if v.isNull then .ok .null else sizeIn v.display.toList

/-- The pieces between occurrences of the argument, which is a space if none is given. -/
def split : Filter := ofText ⟨"split", [], 1⟩ fun s args =>
  let sep := argument args 0 " "
  if sep.isEmpty then .error .emptySeparator else .ok (.list ((cut sep s).map textValue))

/-- The second argument in place of the first. -/
def replace : Filter := ofText ⟨"replace", ["old"], 1⟩ fun s args =>
  .ok (textValue (replaceAll (argument args 0 "") (argument args 1 "") s))

/-- The argument in front. -/
def prefixed : Filter := ofText ⟨"prefix", [], 1⟩ fun s args => .ok (textValue (argument args 0 "" ++ s))

/-- The argument behind. -/
def suffixed : Filter := ofText ⟨"suffix", [], 1⟩ fun s args => .ok (textValue (s ++ argument args 0 ""))

/-- The argument in place of absence and of the empty text. -/
def fallback : Filter := ofValue ⟨"default", [], 1⟩ fun v args =>
  match v with
  | .null | .text "" => .ok (textValue (argument args 0 ""))
  | v => .ok v

/-- The address that a reference means at the argument; the reference itself without one. -/
def absolute : Filter := ofText ⟨"absolute_url", [], 1⟩ fun s args =>
  match Url.join (argument args 0 "") s with
  | .ok t => .ok (textValue t)
  | .error e => .error (.address e)

/-- What follows the scheme of a web address, in any case of the letters. -/
def afterScheme? (s : List Char) : Option (List Char) :=
  let front (n : Nat) (t : String) : Option (List Char) :=
    if (s.take n).map fold == t.toList then some (s.drop n) else none
  (front 8 "https://").or (front 7 "http://")

/-- Without the scheme of a web address. -/
def stripScheme : Filter := ofText ⟨"strip_scheme", [], 0⟩ fun s _ => .ok (textValue ((afterScheme? s).getD s))

/-- Whether the text is a web address with a secure scheme. -/
def secure : Filter := ofText ⟨"secure", [], 0⟩ fun s _ => .ok (.bool (startsWith "https://".toList (Text.lower s)))

/-- The filters of the library, under the names that expressions use. -/
def standard : Registry :=
  [("trim", trim), ("squish", squish), ("upper", upper), ("uppercase", upper), ("lower", lower), ("lowercase", lower),
   ("int", digits), ("bytes", bytes), ("split", split), ("replace", replace), ("prefix", prefixed),
   ("suffix", suffixed), ("default", fallback), ("urljoin", absolute), ("strip_scheme", stripScheme),
   ("secure", secure)]

end Harvest.Filter
