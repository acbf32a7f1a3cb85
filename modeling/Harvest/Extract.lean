import Harvest.Hook
import Harvest.Record
import Harvest.Render

/-
  Working a schema through a page.

    * A text gives what its query makes of the first match; in a list, of every match.
    * A mapping gives a record of its fields, absent values left out. A root moves the scope to its first match.
    * A list gives the results of its items, one after the other. A mapping with a root gives one record for each match
      of the root; one without gives columns, put together to records by position.
  Absence is no fault. Hooks are asked about single queries and about mappings that stand for one record.

  `Schema.extract` follows the schema. It hands what a hook puts in place of a mapping to `expand`; `expanding` ties
  this knot, up to a number of expansions inside each other: one for each mapping on the way down a schema, so that each
  of them may be put in its own place, and `deepest` more.
-/
namespace Harvest
open Markup

/-- How schemas are worked through. -/
structure Engine where
  dialect : Dialect
  queryHook : Option QueryHook := none
  mappingHook : Option MappingHook := none

/-- What is kept while schemas are worked through: the queries read, and what was reported, in order. -/
structure Session where
  memo : Memo := []
  log : List Event := []

/-- Work on a schema. Also a fault leaves a session behind. -/
abbrev Work := ExceptT Fault (StateM Session)

/-- How a value that a hook put in place of a mapping is worked through a scope. -/
abbrev Expansion := Value → Scope → Work Value

namespace Work

/-- Reports events. -/
def report (es : List Event) : Work Unit := modify fun s => { s with log := s.log ++ es }

/-- The result of a search in a scope. -/
def found {α : Type} (r : Scope.Search α) : Work α :=
  match r with
  | .error f => throw (.selector f)
  | .ok (a, es) => do
    report es
    return a

/-- What a query makes of an element. -/
def render (q : Query) (e : Element) : Work Value :=
  match q.render e with
  | .ok v => return v
  | .error f => throw (.filter f)

/-- The schema that a value writes down. -/
def compile (v : Value) : Work Compiled :=
  match Schema.compile v with
  | .ok s => return s
  | .error f => throw (.schema f)

/-- The decision of a hook; without a hook all stays as it is. -/
def decision {α : Type} (r : Option (Except Fault (Outcome α))) : Work (Outcome α) :=
  match r with
  | none => return .unchanged
  | some (.ok o) => return o
  | some (.error f) => throw f

end Work

open Work

section
variable [Css.Library]

namespace Engine
variable (x : Engine)

/-- The query of an expression. -/
def ask (expression : String) : Work Query := do
  let s ← get
  match x.dialect.ask s.memo expression with
  | (.error f, _) => throw (.query f)
  | (.ok a, m) =>
    set { s with memo := m, log := s.log ++ a.events : Session }
    return a.query

/-- The first element that a query names. -/
def findOne (scope : Scope) (q : Query) : Work (Option Element) :=
  match q.selector with
  | none => return scope.elements.head?
  | some s => found (scope.findFirst? s)

/-- All elements that a query names. -/
def findMany (scope : Scope) (q : Query) : Work Scope :=
  match q.selector with
  | none => return scope
  | some s => found (scope.findAll s)

/-- What a query makes of the first element it names; absence if there is none. -/
def takeOne (scope : Scope) (q : Query) : Work Value := do
  match ← findOne scope q with
  | none => return .null
  | some e => render q e

/-- One value by an expression. -/
def single (expression : String) (scope : Scope) : Work Value := do
  let q ← x.ask expression
  match ← decision (x.queryHook.map fun h => h scope q) with
  | .content v => return v
  | .unchanged => takeOne scope q
  | .replaced r => takeOne scope r

/-- What a query makes of each of some elements. -/
def renderAll (q : Query) : List Element → Work (List Value)
  | [] => return []
  | e :: es => do
    let v ← render q e
    return v :: (← renderAll q es)

/-- The values of all matches of an expression. -/
def plural (expression : String) (scope : Scope) : Work (List Value) := do
  let q ← x.ask expression
  let s ← findMany scope q
  renderAll q s.elements

/-- The scope below a root: its first match, or nothing. -/
def narrow (root : Option String) (scope : Scope) : Work Scope :=
  match root with
  | none => return scope
  | some r => do
    match ← found (scope.findFirst? r) with
    | none =>
      report [.rootNoMatch r]
      return .empty
    | some e => return .of e

/-- A record below a root. -/
def filled (root : Option String) (fill : Scope → Work Value.Record) (scope : Scope) : Work Value := do
  return .ofRecord (← fill (← narrow root scope))

/-- A mapping that stands for one record, the hook asked first. -/
def single? (expand : Expansion) (source : Entries) (root : Option String) (fill : Scope → Work Value.Record)
    (scope : Scope) : Work Value := do
  match ← decision (x.mappingHook.map fun h => h scope source) with
  | .content v => return v
  | .replaced v => expand v scope
  | .unchanged => filled root fill scope

/-- Something for each of some elements. -/
def forEach (f : Scope → Work Value) : List Element → Work (List Value)
  | [] => return []
  | e :: es => do
    let v ← f (.of e)
    return v :: (← forEach f es)

/-- One record for each match of a root, the source of the mapping standing without its root. -/
def records (expand : Expansion) (source : Entries) (root : String) (fill : Scope → Work Value.Record) (scope : Scope) :
    Work (List Value) := do
  let s ← found (scope.findAll root)
  forEach (x.single? expand (Value.without Schema.rootKey source) none fill) s.elements

end Engine

/-- Absence in place of records without fields. -/
def blankToNull (v : Value) : Value := if v.isBlank then .null else v

/-- A field added to a record in front, unless its value is absent. -/
def withField (name : String) (v : Value) (r : Value.Record) : Value.Record := if v.isNull then r else (name, v) :: r

mutual

/-- Works a schema through a scope. -/
def Schema.extract (x : Engine) (expand : Expansion) (scope : Scope) : Compiled → Work Value
  | .text e => x.single e scope
  | .mapping (.mk root fs source) => x.single? expand source root (fun s => fieldsOf x expand s fs) scope
  | .list is => do return .list (← itemsOf x expand scope is)

/-- The fields of a record, absent values left out. -/
def fieldsOf (x : Engine) (expand : Expansion) (scope : Scope) : List (String × Compiled) → Work Value.Record
  | [] => return []
  | (k, s) :: fs => do
    let v ← s.extract x expand scope
    return withField k v (← fieldsOf x expand scope fs)

/-- The results of the items of a list, one after the other. -/
def itemsOf (x : Engine) (expand : Expansion) (scope : Scope) : List (Item Entries) → Work (List Value)
  | [] => return []
  | .text e :: is => do
    let vs ← x.plural e scope
    return vs.filter (!·.isNull) ++ (← itemsOf x expand scope is)
  | .mapping (.mk (some r) fs source) :: is => do
    let vs ← x.records expand source r (fun s => fieldsOf x expand s fs) scope
    return vs.filter (!·.isBlank) ++ (← itemsOf x expand scope is)
  | .mapping (.mk none fs _) :: is => do
    let cs ← columnsOf x expand scope fs
    return (Columns.zip cs).map Value.ofRecord ++ (← itemsOf x expand scope is)

/-- The columns that the fields of a mapping make; a list makes none, since it cannot be aligned. -/
def columnsOf (x : Engine) (expand : Expansion) (scope : Scope) : List (String × Compiled) → Work Columns
  | [] => return []
  | (k, .text e) :: fs => do
    let vs ← x.plural e scope
    return (k, vs) :: (← columnsOf x expand scope fs)
  | (k, .mapping (.mk (some r) gs source)) :: fs => do
    let vs ← x.records expand source r (fun s => fieldsOf x expand s gs) scope
    return (k, vs.map blankToNull) :: (← columnsOf x expand scope fs)
  | (k, .mapping (.mk none gs _)) :: fs => do
    let cs ← columnsOf x expand scope gs
    return (k, ((Columns.zip cs).map Value.ofRecord).map blankToNull) :: (← columnsOf x expand scope fs)
  | (k, .list _) :: fs => do
    report [.unalignableField]
    return (k, []) :: (← columnsOf x expand scope fs)

end

/-- Works a value that was put in place of a mapping through a scope. If it is a mapping itself, no hook is asked about
it again. The number bounds the expansions inside each other. -/
def Engine.expanding (x : Engine) : Nat → Expansion
  | 0 => fun _ _ => throw .depth
  | n + 1 => fun v scope => do
    match ← compile v with
    | .mapping (.mk root fs _) => Engine.filled root (fun s => fieldsOf x (x.expanding n) s fs) scope
    | s => s.extract x (x.expanding n) scope

/-- How deep expansions may stand inside each other, beyond the mappings that a schema itself has inside each other. -/
def Engine.deepest : Nat := 1000

/-- Works a value that writes down a schema through a scope. -/
def Engine.resolve (x : Engine) (schema : Value) (scope : Scope) : Work Value := do
  let s ← compile schema
  s.extract x (x.expanding (s.depth + Engine.deepest)) scope

end
end Harvest
