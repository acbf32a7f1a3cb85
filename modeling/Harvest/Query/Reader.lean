import Harvest.Query.Basic
import Harvest.Query.Invocation
import Harvest.Regex.Reader
import Harvest.Regex.Match
import Harvest.Event

/-
  Reading queries: `css[attribute] | filter:argument`.

  A dialect says how they are written: one pattern cuts the filters off, another takes selector and attribute apart,
  and a text separates the arguments of a filter. What stands in front of the filters and does not fit the pattern is a
  selector as a whole. Filters that the dialect does not know are left out.
    1. `Dialect.read` reads one query.
    2. `Dialect.ask` reads it once only: a memo answers from then on.
-/
namespace Harvest
open Text

/-- How queries are written, and the filters they can name. -/
structure Dialect where
  filters : Registry
  selectorPattern : Regex.Expression
  filterSeparator : Regex.Expression
  argumentSeparator : String

/-- Why a query cannot be read. Validation sees to the groups of the selector pattern, not to those of the separator. -/
inductive QueryFault where
  /-- The selector pattern has too few groups. -/
  | noGroup
  /-- A group of the filter separator took no part in a match. -/
  | missingPiece
  deriving DecidableEq, Repr

/-- The text of a fault. -/
def QueryFault.message : QueryFault → String
  | noGroup => "no such group"
  | missingPiece => "'NoneType' object has no attribute 'strip'"

/-- The trimmed text of a group; none if nothing is left of it. -/
def filled? (s : Option (List Char)) : Option String :=
  match s.map trim with
  | none => none
  | some [] => none
  | some t => some (String.ofList t)

/-- The invocations among the pieces behind the first, blank pieces left out. -/
def invocations (separator : String) : List (Option (List Char)) → Except QueryFault (List Invocation)
  | [] => .ok []
  | none :: _ => .error .missingPiece
  | some s :: r => do
    let rest ← invocations separator r
    return if allBlank s then rest else Invocation.read separator (String.ofList s) :: rest

/-- The step that an invocation stands for, if its filter is known. -/
def Registry.bind? (r : Registry) (i : Invocation) : Option Step := (r.find? i.name).map (⟨i.name, i.args, ·⟩)

/-- The invocations whose filters are known, as steps. -/
def Registry.bind (r : Registry) (is : List Invocation) : List Step := is.filterMap r.bind?

namespace Dialect

/-- What is said about filters that are not known. -/
def unknownEvents (expression : String) (is : List Invocation) (steps : List Step) : List Event :=
  if steps.length = is.length then []
  else [.filterUnknown expression ((is.map (·.name)).filter fun n => !(steps.map (·.name)).contains n)]

/-- The query whose selector and attribute are the groups of a match. -/
def assemble (d : Dialect) (expression : String) (groups : List (Option (List Char)))
    (pieces : List (Option (List Char))) : Except QueryFault (Query × List Event) :=
  match groups with
  | selector :: part :: _ => do
    let is ← invocations d.argumentSeparator pieces
    let steps := d.filters.bind is
    return (⟨filled? selector, filled? part, steps, expression⟩, unknownEvents expression is steps)
  | _ => .error .noGroup

/-- Reads a query, with what is to be logged about it. -/
def read (d : Dialect) (expression : String) : Except QueryFault (Query × List Event) :=
  match d.filterSeparator.split (trim expression.toList) with
  | some field :: pieces =>
    match d.selectorPattern.matchAt? field with
    | none => .ok ({ selector := filled? (some field), expression }, [.selectorUnparsed expression])
    | some place => d.assemble expression (d.selectorPattern.groupTexts place) pieces
  | _ => .error .missingPiece

end Dialect

/-- The queries read so far, in order; each stands for its expression. -/
abbrev Memo := List Query

/-- A query from a memo: its place there, which is its identity, and what was logged when it was read just now. -/
structure Answer where
  place : Nat
  query : Query
  events : List Event

/-- The query of an expression, with its place. -/
def Memo.find? (m : Memo) (expression : String) : Option (Nat × Query) :=
  match m.findIdx? (·.expression == expression) with
  | none => none
  | some i => (m[i]?).map (i, ·)

/-- The query of an expression, from the memo or read and put there. What cannot be read is not kept. -/
def Dialect.ask (d : Dialect) (m : Memo) (expression : String) : Except QueryFault Answer × Memo :=
  match m.find? expression with
  | some (i, q) => (.ok ⟨i, q, []⟩, m)
  | none =>
    match d.read expression with
    | .error e => (.error e, m)
    | .ok (q, events) => (.ok ⟨m.length, q, events⟩, m ++ [q])

end Harvest
