import Harvest.Fault
import Harvest.Scope

/-
  Hooks: functions of the caller that step in before a query or a mapping is worked through.

  A hook leaves things as they are, puts something else in their place, or gives the result itself.
-/
namespace Harvest

/-- What a hook decides. -/
inductive Outcome (α : Type) where
  | unchanged
  | replaced (a : α)
  | content (v : Value)

namespace Outcome
variable {α : Type}

/-- The outcome with a content, unless that is absence, which decides nothing. -/
def orContent (o : Outcome α) (v : Value) : Outcome α := if v.isNull then o else .content v

/-- Whether the outcome is the result. -/
def decides : Outcome α → Bool
  | content _ => true
  | _ => false

end Outcome

/-- A hook on queries for one value. -/
abbrev QueryHook := Scope → Query → Except Fault (Outcome Query)

/-- A hook on mappings. What it puts in place of a mapping is a schema of any kind. -/
abbrev MappingHook := Scope → Entries → Except Fault (Outcome Value)

/-- The hook that leaves every query as it is. -/
def QueryHook.idle : QueryHook := fun _ _ => .ok .unchanged

/-- The hook that leaves every mapping as it is. -/
def MappingHook.idle : MappingHook := fun _ _ => .ok .unchanged

/-- A function that serves as a hook of either kind. -/
structure Hook where
  onQuery : QueryHook
  onMapping : MappingHook

end Harvest
