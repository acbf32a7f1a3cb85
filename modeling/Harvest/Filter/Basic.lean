import Harvest.Value.Display
import Harvest.Number.Numeral
import Harvest.Url.Join

/-
  Filters: functions that rework a value that was read from a page.

  A filter has a label, which messages use, and a run on a value and literal arguments. A registry is a list of filters
  under names, in which every name stands once.
    1. `Filter.ofText` makes a filter of a function on text: absence goes through untouched, any other value is turned
       into text first.
    2. `Filter.ofValue` makes a filter of a function on values.
  Both refuse arguments that the signature does not allow.
-/
namespace Harvest

/-- Which arguments a filter takes after the value: the names of those it needs, and how many more it allows. -/
structure Signature where
  label : String
  needed : List String := []
  optional : Nat := 0

/-- Why a filter fails. -/
inductive FilterFault where
  | tooMany (signature : Signature) (given : Nat)
  | missing (label argument : String)
  | emptySeparator
  | number (fault : Numeral.IntegerFault) (digits : String)
  | infiniteSize
  | address (fault : Url.Fault)

namespace FilterFault

/-- How many arguments a signature takes, the value counted in. -/
def arityText (s : Signature) : String :=
  let least := 1 + s.needed.length
  let most := least + s.optional
  if least = most then
    "takes " ++ toString most ++ (if most = 1 then " positional argument" else " positional arguments")
  else "takes from " ++ toString least ++ " to " ++ toString most ++ " positional arguments"

/-- A text in quotes, cut after 200 characters. -/
def excerpt (s : String) : String := String.ofList ((Text.quoted s.toList).take 200)

/-- The text of a fault. -/
def message : FilterFault → String
  | tooMany s n => s.label ++ "() " ++ arityText s ++ " but " ++ toString n ++ " were given"
  | missing l a => l ++ "() missing 1 required positional argument: '" ++ a ++ "'"
  | emptySeparator => "empty separator"
  | number .malformed ds => "invalid literal for int() with base 10: " ++ excerpt ds
  | number (.tooLong n) _ => Numeral.tooLongMessage n
  | infiniteSize => "cannot convert float infinity to integer"
  | address f => f.message

end FilterFault

/-- A filter. -/
structure Filter where
  label : String
  run : Value → List String → Except FilterFault Value

namespace Filter

/-- The fault of a number of arguments, if it is one. -/
def arityFault? (s : Signature) (args : List String) : Option FilterFault :=
  if s.needed.length + s.optional < args.length then some (.tooMany s (1 + args.length))
  else (s.needed[args.length]?).map (FilterFault.missing s.label)

/-- A filter from a function on values. -/
def ofValue (s : Signature) (f : Value → List String → Except FilterFault Value) : Filter where
  label := s.label
  run v args :=
    match arityFault? s args with
    | some e => .error e
    | none => f v args

/-- A filter from a function on text. -/
def ofText (s : Signature) (f : List Char → List String → Except FilterFault Value) : Filter where
  label := s.label
  run v args :=
    if v.isNull then .ok .null else
    match arityFault? s args with
    | some e => .error e
    | none => f v.display.toList args

end Filter

/-- Filters under names. -/
abbrev Registry := List (String × Filter)

/-- The filter under a name. -/
def Registry.find? (r : Registry) (name : String) : Option Filter := r.lookup name

end Harvest
