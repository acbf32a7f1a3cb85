import Harvest.Number.Double
import Harvest.Schema.Basic

/-
  Values: what schemas are written in, what filters work on, and what an extraction yields.

  `null` stands for absence. A mapping keeps its entries in order; two keys count as one when they are the same text,
  the same tuple or the same number, where truth values are the numbers 0 and 1. A compiled schema may stand inside a
  value; its mappings have lists of entries for sources.
-/
namespace Harvest

/-- A value. `other` is a value of a kind that only its name tells. -/
inductive Value where
  | null
  | bool (b : Bool)
  | int (i : Int)
  | real (x : Double)
  | text (s : String)
  | list (items : List Value)
  | tuple (items : List Value)
  | map (entries : List (Value × Value))
  | schema (s : Schema (List (Value × Value)))
  | other (kind : String)
  deriving Inhabited

/-- The entries of a mapping, in order. -/
abbrev Entries := List (Value × Value)

/-- A schema whose mappings were made from entries. -/
abbrev Compiled := Schema Entries

namespace Value

/-- A record: entries under texts. -/
abbrev Record := List (String × Value)

/-- A record as a value. -/
def ofRecord (r : Record) : Value := .map (r.map fun (k, v) => (.text k, v))

/-- Whether a value is absence. -/
def isNull : Value → Bool
  | .null => true
  | _ => false

/-- Whether a value is absence or a mapping without entries. -/
def isBlank : Value → Bool
  | .null => true
  | .map [] => true
  | _ => false

/-- The number that a key counts as: a whole one, or another finite double. -/
inductive KeyNumber where
  | whole (i : Int)
  | real (x : Double)
  deriving DecidableEq

/-- The number that a value counts as. -/
def keyNumber? : Value → Option KeyNumber
  | .bool b => some (.whole (if b then 1 else 0))
  | .int i => some (.whole i)
  | .real .nan => none
  | .real x => match x.whole? with
    | some i => some (.whole i)
    | none => some (.real x)
  | _ => none

mutual

/-- Whether two values are one key. -/
def sameKey : Value → Value → Bool
  | .null, .null => true
  | .text s, .text t => s == t
  | .tuple xs, .tuple ys => sameKeys xs ys
  | .bool a, w => keyNumber? (.bool a) == keyNumber? w
  | .int i, w => keyNumber? (.int i) == keyNumber? w
  | .real x, w => (keyNumber? (.real x)).isSome && keyNumber? (.real x) == keyNumber? w
  | .schema s, .schema t => s.same t
  | .other k, .other l => k == l
  | _, _ => false

/-- Whether two lists hold the same keys. -/
def sameKeys : List Value → List Value → Bool
  | [], [] => true
  | x :: xs, y :: ys => sameKey x y && sameKeys xs ys
  | _, _ => false

end

/-- The value under a key. -/
def find? (k : Value) : Entries → Option Value
  | [] => none
  | (l, v) :: es => if sameKey l k then some v else find? k es

/-- A value put under a key: in the place of the entry that has the key, or at the end. -/
def put (k v : Value) : Entries → Entries
  | [] => [(k, v)]
  | (l, w) :: es => if sameKey l k then (l, v) :: es else (l, w) :: put k v es

/-- Entries put one after the other. -/
def putAll (es : Entries) (more : Entries) : Entries := more.foldl (fun es (k, v) => put k v es) es

/-- The entries whose key is another. -/
def without (k : Value) (es : Entries) : Entries := es.filter fun (l, _) => !sameKey l k

/-- The name of the kind of a compiled schema. -/
def schemaKind {σ : Type} : Schema σ → String
  | .text _ => "StringSelector"
  | .mapping _ => "FieldMapping"
  | .list [_] => "ArrayOf"
  | .list _ => "ArrayConcat"

/-- The name of the kind of a value. -/
def kind : Value → String
  | .null => "NoneType"
  | .bool _ => "bool"
  | .int _ => "int"
  | .real _ => "float"
  | .text _ => "str"
  | .list _ => "list"
  | .tuple _ => "tuple"
  | .map _ => "dict"
  | .schema s => schemaKind s
  | .other k => k

end Value
end Harvest
