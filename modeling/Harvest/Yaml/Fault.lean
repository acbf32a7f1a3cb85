import Harvest.Number.Numeral
import Harvest.Text.Quoted
import Harvest.Time.Civil

/-
  What can be wrong with a YAML text, and with the scalars in it.
-/
namespace Harvest.Yaml

/-- Why a scalar has no value of the type that it is tagged with. -/
inductive ScalarFault where
  /-- The text is no integer of the base. -/
  | notInteger (base : Nat) (text : String)
  | tooLong (digits : Nat)
  | notDouble (text : String)
  | notTruth (text : String)
  /-- The text of a number is empty. -/
  | noNumber
  | notTime
  | time (fault : Time.Fault)
  /-- An escape gives a number beyond the last character. -/
  | beyondCharacters
  /-- An escape gives a number of more than 31 bits. -/
  | codeTooLarge
  deriving DecidableEq, Repr

namespace ScalarFault

/-- The text of a fault. -/
def message : ScalarFault → String
  | notInteger b t => "invalid literal for int() with base " ++ toString b ++ ": " ++ Text.quotedString t
  | tooLong n => Numeral.tooLongMessage n
  | notDouble t => "could not convert string to float: " ++ Text.quotedString t
  | notTruth t => Text.quotedString t
  | noNumber => "string index out of range"
  | notTime => "'NoneType' object has no attribute 'groupdict'"
  | time f => f.message
  | beyondCharacters => "chr() arg not in range(0x110000)"
  | codeTooLarge => "Python int too large to convert to C int"

/-- The name of the kind of a fault. -/
def kind : ScalarFault → String
  | notTruth _ => "KeyError"
  | noNumber => "IndexError"
  | notTime => "AttributeError"
  | codeTooLarge => "OverflowError"
  | _ => "ValueError"

end ScalarFault

/-- Why a text is refused. -/
inductive Fault where
  /-- A character may not occur at all. -/
  | character
  /-- A piece of the text is no token. -/
  | token
  /-- A token stands where another one has to. -/
  | order
  /-- An alias without anchor, an anchor given twice, or a second document. -/
  | reference
  /-- A node without value: an unknown tag, a tag of another kind of node, a collection for a key. -/
  | value
  /-- The reader gives up in another way. -/
  | raised (kind message : String)
  deriving DecidableEq, Repr

namespace Fault

/-- The fault of a scalar that is not what its tag says. -/
def scalar (f : ScalarFault) : Fault := .raised f.kind f.message

/-- The text of a fault. -/
def message : Fault → String
  | character => "special characters are not allowed"
  | token => "while scanning for the next token"
  | order => "while parsing a node"
  | reference => "while composing a node"
  | value => "while constructing a node"
  | raised _ m => m

/-- The name of the kind of a fault. -/
def kind : Fault → String
  | character => "ReaderError"
  | token => "ScannerError"
  | order => "ParserError"
  | reference => "ComposerError"
  | value => "ConstructorError"
  | raised k _ => k

/-- Whether the text is refused as YAML. -/
def isSyntactic : Fault → Bool
  | raised _ _ => false
  | _ => true

end Fault
end Harvest.Yaml
