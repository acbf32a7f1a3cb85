import Harvest.Schema.Compile
import Harvest.Query.Reader
import Harvest.Css.Library
import Harvest.Markup.Document

/-
  The faults of an extraction, with the text and the name under which each is reported.
-/
namespace Harvest

/-- Why an extraction fails. -/
inductive Fault where
  | schema (fault : SchemaFault)
  | query (fault : QueryFault)
  | filter (fault : FilterFault)
  | selector (fault : Css.Fault)
  | parser (fault : Markup.Fault)
  /-- A hook gave up. -/
  | hook (text : String)
  /-- Expansion did not come to an end. -/
  | depth

namespace Fault

/-- The text of a fault. -/
def message : Fault → String
  | schema f => f.message
  | query f => f.message
  | filter f => f.message
  | selector f => f.message
  | parser f => f.message
  | hook t => t
  | depth => "maximum recursion depth exceeded"

/-- The name of the kind of a filter's fault. -/
def filterKind : FilterFault → String
  | .tooMany _ _ | .missing _ _ => "TypeError"
  | .infiniteSize => "OverflowError"
  | .emptySeparator | .number _ _ | .address _ => "ValueError"

/-- The name of the kind of a fault. -/
def kind : Fault → String
  | schema f => f.kind
  | query .noGroup => "IndexError"
  | query .missingPiece => "AttributeError"
  | filter f => filterKind f
  | selector f => f.kind
  | parser f => f.kind
  | hook _ => "RuntimeError"
  | depth => "RecursionError"

end Fault
end Harvest
