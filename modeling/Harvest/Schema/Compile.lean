import Harvest.Value.Display

/-
  From a value to the schema it writes down.

  A text is an expression. A mapping has texts for keys; the key `$root` names its root element and is no field. A list
  or tuple holds texts and mappings. A compiled schema inside a value stands for itself. Nothing else is a schema, and
  the first fault met in reading order is reported, the fault of a root before those of the fields.
-/
namespace Harvest

/-- Why a value is no schema. -/
inductive SchemaFault where
  | nestedList
  | unsupported (kind : String)
  | rootKind (kind : String)
  | fieldName (shown : String)
  /-- The name of a field is no text and cannot even be shown. -/
  | hiddenName
  deriving DecidableEq, Repr

namespace SchemaFault

/-- The text of a fault. -/
def message : SchemaFault → String
  | nestedList => "Nested list schemas are not supported"
  | unsupported k => "Unsupported schema value: " ++ k
  | rootKind k => "$root must be a selector string, got " ++ k
  | fieldName s => "Field names must be strings, got " ++ s
  | hiddenName => Numeral.tooLongToWrite

/-- The name of the kind of a fault. -/
def kind : SchemaFault → String
  | hiddenName => "ValueError"
  | _ => "SchemaError"

/-- Whether a fault is told as one of the schema. The attempt to show a name is a fault of its own. -/
def isReported : SchemaFault → Bool
  | hiddenName => false
  | _ => true

/-- The fault of a field whose name is no text. -/
def ofName (k : Value) : SchemaFault := if k.isShowable then .fieldName k.shown else .hiddenName

end SchemaFault

namespace Schema

/-- The key of the root element. -/
def rootKey : Value := .text "$root"

/-- The root that the entries of a mapping name; an empty text names none. -/
def rootOf (es : Entries) : Except SchemaFault (Option String) :=
  match Value.find? rootKey es with
  | none => .ok none
  | some .null => .ok none
  | some (.text r) => .ok (if r.isEmpty then none else some r)
  | some v => .error (.rootKind v.kind)

/-- A schema as an item, or the fault that it is a list. -/
def asItem (s : Compiled) : Except SchemaFault (Item Entries) :=
  match s.toItem? with
  | some i => .ok i
  | none => .error .nestedList

mutual

/-- The schema that a value writes down. -/
def compile : Value → Except SchemaFault Compiled
  | .schema s => .ok s
  | .text e => .ok (.text e)
  | .map es => do
    let root ← rootOf es
    let fields ← compileFields es
    return .mapping (.mk root fields es)
  | .list xs => do return .list (← compileItems xs)
  | .tuple xs => do return .list (← compileItems xs)
  | .null => .error (.unsupported (Value.kind .null))
  | .bool b => .error (.unsupported (Value.kind (.bool b)))
  | .int i => .error (.unsupported (Value.kind (.int i)))
  | .real x => .error (.unsupported (Value.kind (.real x)))
  | .other k => .error (.unsupported k)

/-- The items of a list, in order. -/
def compileItems : List Value → Except SchemaFault (List (Item Entries))
  | [] => .ok []
  | v :: vs => do
    let s ← compile v
    let i ← asItem s
    let is ← compileItems vs
    return i :: is

/-- The fields of a mapping, in order. -/
def compileFields : List (Value × Value) → Except SchemaFault (List (String × Compiled))
  | [] => .ok []
  | (.text k, v) :: es =>
    if k == "$root" then compileFields es else do
      let s ← compile v
      let fs ← compileFields es
      return (k, s) :: fs
  | (k, _) :: _ => .error (.ofName k)

end
end Schema

/-- The mapping without its root element. -/
def Mapping.withoutRoot : Mapping Entries → Mapping Entries
  | .mk _ fs es => .mk none fs (Value.without Schema.rootKey es)

end Harvest
