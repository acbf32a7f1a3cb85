import Harvest.Value.Basic

/-
  Records, and columns put together to records by position.

  Record `i` takes value `i` of every column, in the order of the columns. Columns that are too short count as padded
  with absence, and absent values are left out of their record.
-/
namespace Harvest

/-- A value put under a name: in the place of the field that has it, or at the end. -/
def Value.putField (name : String) (v : Value) : Value.Record → Value.Record
  | [] => [(name, v)]
  | (k, w) :: r => if k == name then (k, v) :: r else (k, w) :: putField name v r

/-- Named columns. -/
abbrev Columns := List (String × List Value)

namespace Columns

/-- The length of the longest column. -/
def height : Columns → Nat
  | [] => 0
  | (_, vs) :: cs => max vs.length (height cs)

/-- The record with the value of a column at a position, if there is one. -/
def putAt (i : Nat) (r : Value.Record) (column : String × List Value) : Value.Record :=
  match column.2[i]? with
  | none | some .null => r
  | some v => Value.putField column.1 v r

/-- The record at a position. -/
def recordAt (cs : Columns) (i : Nat) : Value.Record := cs.foldl (putAt i) []

/-- One record for each position of the longest column. -/
def zip (cs : Columns) : List Value.Record := (List.range cs.height).map cs.recordAt

end Columns
end Harvest
