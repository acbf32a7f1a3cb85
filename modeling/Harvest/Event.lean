/-
  What is logged while a schema is worked through.

  Each event has a name, a level and the part of the library that reports it.
-/
namespace Harvest

/-- The weight of a log line. -/
inductive Level where
  | debug
  | info
  | warning
  | error
  deriving DecidableEq, Repr

/-- The name of a level. -/
def Level.name : Level → String
  | debug => "debug"
  | info => "info"
  | warning => "warning"
  | error => "error"

/-- The rank of a level; lines below the rank asked for are dropped. -/
def Level.rank : Level → Nat
  | debug => 10
  | info => 20
  | warning => 30
  | error => 40

/-- Something worth a log line. -/
inductive Event where
  | selectorUnparsed (expression : String)
  | filterUnknown (expression : String) (filters : List String)
  | selectorInvalid (selector : String)
  | rootNoMatch (root : String)
  | unalignableField
  deriving DecidableEq, Repr

namespace Event

/-- The name of an event. -/
def name : Event → String
  | selectorUnparsed _ => "selector_unparsed"
  | filterUnknown _ _ => "filter_unknown"
  | selectorInvalid _ => "selector_invalid"
  | rootNoMatch _ => "root_no_match"
  | unalignableField => "unalignable_field"

/-- The level of an event. -/
def level : Event → Level
  | selectorInvalid _ => .warning
  | _ => .debug

end Event
end Harvest
