import Harvest.Extractor
import Harvest.Proofs.Fallible

/-
  What schemas mean, told without the memo and the log that a session keeps.

  `Extract` works in a session: queries are kept once they were read, and what happens is reported. The functions here
  give the same values and faults from the page alone, every query being read where it stands.
    1. `single` and `plural` take an expression, `one` and `records` a mapping.
    2. `value` follows a schema, as `Schema.extract` does.
    3. `resolve` compiles a value first, as `Engine.resolve` does.
  That a session gives nothing else, whatever was asked before, is shown in `Proofs.Independence`. The lemmas at the end
  take the functions apart, also for the case that there are no hooks.
-/
namespace Harvest.Meaning
open Markup

/-- What a value that stands in place of a mapping means in a scope. -/
abbrev Expansion := Value → Scope → Except Fault Value

/-- The result of a search. -/
def found {α : Type} : Scope.Search α → Except Fault α
  | .ok (a, _) => .ok a
  | .error f => .error (.selector f)

/-- What a query makes of an element. -/
def render (q : Query) (e : Element) : Except Fault Value :=
  match q.render e with
  | .ok v => .ok v
  | .error f => .error (.filter f)

/-- The schema that a value writes down. -/
def compile (v : Value) : Except Fault Compiled :=
  match Schema.compile v with
  | .ok s => .ok s
  | .error f => .error (.schema f)

/-- The decision of a hook; without a hook all stays as it is. -/
def decision {α : Type} (r : Option (Except Fault (Outcome α))) : Except Fault (Outcome α) := r.getD (.ok .unchanged)

variable [Css.Library]

/-- The first element that a query names. -/
def findOne (scope : Scope) (q : Query) : Except Fault (Option Element) :=
  match q.selector with
  | none => .ok scope.elements.head?
  | some s => found (scope.findFirst? s)

/-- All elements that a query names. -/
def findMany (scope : Scope) (q : Query) : Except Fault Scope :=
  match q.selector with
  | none => .ok scope
  | some s => found (scope.findAll s)

/-- What a query makes of the first element it names. -/
def takeOne (scope : Scope) (q : Query) : Except Fault Value := do
  match ← findOne scope q with
  | none => return .null
  | some e => render q e

/-- The scope below a root. -/
def narrow (root : Option String) (scope : Scope) : Except Fault Scope :=
  match root with
  | none => .ok scope
  | some r => do return .ofOption (← found (scope.findFirst? r))

/-- A record below a root. -/
def filled (root : Option String) (fill : Scope → Except Fault Value.Record) (scope : Scope) : Except Fault Value := do
  return .ofRecord (← fill (← narrow root scope))

variable (x : Engine)

/-- The query of an expression. -/
def query (expression : String) : Except Fault Query :=
  match x.dialect.read expression with
  | .ok (q, _) => .ok q
  | .error f => .error (.query f)

/-- One value by an expression. -/
def single (expression : String) (scope : Scope) : Except Fault Value := do
  let q ← query x expression
  match ← decision (x.queryHook.map fun h => h scope q) with
  | .content v => return v
  | .unchanged => takeOne scope q
  | .replaced r => takeOne scope r

/-- The values of all matches of an expression. -/
def plural (expression : String) (scope : Scope) : Except Fault (List Value) := do
  let q ← query x expression
  let s ← findMany scope q
  s.elements.mapM (render q)

/-- A mapping that stands for one record, the hook asked first. -/
def one (expand : Expansion) (source : Entries) (root : Option String) (fill : Scope → Except Fault Value.Record)
    (scope : Scope) : Except Fault Value := do
  match ← decision (x.mappingHook.map fun h => h scope source) with
  | .content v => return v
  | .replaced v => expand v scope
  | .unchanged => filled root fill scope

/-- One record for each match of a root. -/
def records (expand : Expansion) (source : Entries) (root : String) (fill : Scope → Except Fault Value.Record)
    (scope : Scope) : Except Fault (List Value) := do
  let s ← found (scope.findAll root)
  s.elements.mapM fun e => one x expand (Value.without Schema.rootKey source) none fill (.of e)

mutual

/-- The value of a schema in a scope. -/
def value (expand : Expansion) (scope : Scope) : Compiled → Except Fault Value
  | .text e => single x e scope
  | .mapping (.mk root fs source) => one x expand source root (fun s => fields expand s fs) scope
  | .list is => do return .list (← items expand scope is)

/-- The fields of a record. -/
def fields (expand : Expansion) (scope : Scope) : List (String × Compiled) → Except Fault Value.Record
  | [] => .ok []
  | (k, s) :: fs => do
    let v ← value expand scope s
    return withField k v (← fields expand scope fs)

/-- The results of the items of a list. -/
def items (expand : Expansion) (scope : Scope) : List (Item Entries) → Except Fault (List Value)
  | [] => .ok []
  | .text e :: is => do
    let vs ← plural x e scope
    return vs.filter (!·.isNull) ++ (← items expand scope is)
  | .mapping (.mk (some r) fs source) :: is => do
    let vs ← records x expand source r (fun s => fields expand s fs) scope
    return vs.filter (!·.isBlank) ++ (← items expand scope is)
  | .mapping (.mk none fs _) :: is => do
    let cs ← columns expand scope fs
    return (Columns.zip cs).map Value.ofRecord ++ (← items expand scope is)

/-- The columns that the fields of a mapping make. -/
def columns (expand : Expansion) (scope : Scope) : List (String × Compiled) → Except Fault Columns
  | [] => .ok []
  | (k, .text e) :: fs => do
    let vs ← plural x e scope
    return (k, vs) :: (← columns expand scope fs)
  | (k, .mapping (.mk (some r) gs source)) :: fs => do
    let vs ← records x expand source r (fun s => fields expand s gs) scope
    return (k, vs.map blankToNull) :: (← columns expand scope fs)
  | (k, .mapping (.mk none gs _)) :: fs => do
    let cs ← columns expand scope gs
    return (k, ((Columns.zip cs).map Value.ofRecord).map blankToNull) :: (← columns expand scope fs)
  | (k, .list _) :: fs => do return (k, []) :: (← columns expand scope fs)

end

/-- What a value that was put in place of a mapping means; the number bounds the expansions inside each other. -/
def expanding : Nat → Expansion
  | 0 => fun _ _ => .error .depth
  | n + 1 => fun v scope => do
    match ← compile v with
    | .mapping (.mk root fs _) => filled root (fun s => fields x (expanding n) s fs) scope
    | s => value x (expanding n) scope s

/-- What a value that writes down a schema means in a scope. -/
def resolve (schema : Value) (scope : Scope) : Except Fault Value := do
  let s ← compile schema
  value x (expanding x (s.depth + Engine.deepest)) scope s

/-! ## Lemmas -/

section
variable {x : Engine} {expand : Expansion}

theorem resolve_ok {v : Value} {s : Compiled} (hv : Schema.compile v = .ok s) (scope : Scope) :
    resolve x v scope = value x (expanding x (s.depth + Engine.deepest)) scope s := by
  rw [resolve, compile, hv]
  rfl

theorem resolve_error {v : Value} {f : SchemaFault} (hv : Schema.compile v = .error f) (scope : Scope) :
    resolve x v scope = .error (.schema f) := by
  have hcompile : compile v = .error (.schema f) := by rw [compile, hv]
  rw [resolve, hcompile, error_bind]

/-- What is put in place of a mapping and is a mapping itself is filled in at once. -/
theorem expanding_mapping {v : Value} {root : Option String} {fs : List (String × Compiled)} {source : Entries}
    (hv : Schema.compile v = .ok (.mapping (.mk root fs source))) (n : Nat) (scope : Scope) :
    expanding x (n + 1) v scope = filled root (fun s => fields x (expanding x n) s fs) scope := by
  have hcompile : compile v = .ok (.mapping (.mk root fs source)) := by rw [compile, hv]
  simp only [expanding, hcompile, ok_bind]

/-- A record below a root holds what the narrower scope fills in. -/
theorem filled_eq_ok {root : Option String} {fill : Scope → Except Fault Value.Record} {scope : Scope} {v : Value} :
    filled root fill scope = .ok v ↔ ∃ s r, narrow root scope = .ok s ∧ fill s = .ok r ∧ v = .ofRecord r := by
  rw [filled, bind_eq_ok]
  constructor
  · rintro ⟨s, hs, h⟩
    obtain ⟨r, hr, h⟩ := bind_eq_ok.mp h
    exact ⟨s, r, hs, hr, by simpa using h.symm⟩
  · rintro ⟨s, r, hs, hr, rfl⟩
    exact ⟨s, hs, bind_eq_ok.mpr ⟨r, hr, rfl⟩⟩

/-! Without hooks no mapping is put in another's place, and no value in that of a query. -/

theorem single_eq (hx : x.queryHook = none) (e : String) (scope : Scope) :
    single x e scope = query x e >>= takeOne scope := by
  simp only [single, hx, Option.map_none]
  rfl

theorem one_eq (hx : x.mappingHook = none) (source : Entries) (root : Option String)
    (fill : Scope → Except Fault Value.Record) (scope : Scope) :
    one x expand source root fill scope = filled root fill scope := by
  simp only [one, hx, Option.map_none]
  rfl

theorem value_mapping (hx : x.mappingHook = none) (root : Option String) (fs : List (String × Compiled))
    (source : Entries) (scope : Scope) :
    value x expand scope (.mapping (.mk root fs source)) = filled root (fun s => fields x expand s fs) scope := by
  rw [value, one_eq hx]

/-- Below a root that is met as one of many, the source plays no part. -/
theorem records_eq (hx : x.mappingHook = none) (source : Entries) (root : String)
    (fill : Scope → Except Fault Value.Record) (scope : Scope) :
    records x expand source root fill scope
      = found (scope.findAll root) >>= fun s => s.elements.mapM fun e => filled none fill (.of e) := by
  simp only [records, one_eq hx]

end
end Harvest.Meaning
