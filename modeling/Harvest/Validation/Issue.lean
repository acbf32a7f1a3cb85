import Harvest.Text.Quoted

/-
  What validation finds wrong with data: a complaint, and the path to the value it is about.
-/
namespace Harvest

/-- What is wrong with a value. -/
inductive Complaint where
  | notTable
  | notCallable
  | notText
  | emptyText
  /-- The value is none of the texts allowed. -/
  | notAmong (choices : List String)
  | integerText
  | integerSize
  | integerFraction
  | integerInfinite
  | notInteger
  | truthText
  | notTruth
  /-- The data as a whole is no mapping. -/
  | notRecord (of : String)
  /-- The value breaks a rule of its own. -/
  | rule (text : String)
  deriving DecidableEq, Repr

namespace Complaint

/-- The choices in quotes, with `or` before the last one. -/
def choicesText : List String → String
  | [] => ""
  | [c] => "'" ++ c ++ "'"
  | [c, d] => "'" ++ c ++ "' or '" ++ d ++ "'"
  | c :: cs => "'" ++ c ++ "', " ++ choicesText cs

/-- The name of the kind of a complaint. -/
def kind : Complaint → String
  | notTable => "dict_type"
  | notCallable => "callable_type"
  | notText => "string_type"
  | emptyText => "string_too_short"
  | notAmong _ => "literal_error"
  | integerText => "int_parsing"
  | integerSize => "int_parsing_size"
  | integerFraction => "int_from_float"
  | integerInfinite => "finite_number"
  | notInteger => "int_type"
  | truthText => "bool_parsing"
  | notTruth => "bool_type"
  | notRecord _ => "model_type"
  | rule _ => "value_error"

/-- The text of a complaint. -/
def message : Complaint → String
  | notTable => "Input should be a valid dictionary"
  | notCallable => "Input should be callable"
  | notText => "Input should be a valid string"
  | emptyText => "String should have at least 1 character"
  | notAmong cs => "Input should be " ++ choicesText cs
  | integerText => "Input should be a valid integer, unable to parse string as an integer"
  | integerSize => "Unable to parse input string as an integer, exceeded maximum size"
  | integerFraction => "Input should be a valid integer, got a number with a fractional part"
  | integerInfinite => "Input should be a finite number"
  | notInteger => "Input should be a valid integer"
  | truthText => "Input should be a valid boolean, unable to interpret input"
  | notTruth => "Input should be a valid boolean"
  | notRecord n => "Input should be a valid dictionary or instance of " ++ n
  | rule t => "Value error, " ++ t

end Complaint

/-- A complaint about the value at a path. -/
structure Issue where
  complaint : Complaint
  path : List String
  deriving DecidableEq, Repr

/-- A value, or what is wrong with the data it comes from. -/
abbrev Checked (α : Type) := Except (List Issue) α

namespace Checked
variable {α : Type}

/-- The issues found. -/
def issues : Checked α → List Issue
  | .ok _ => []
  | .error is => is

/-- One issue. -/
def fail (c : Complaint) (path : List String) : Checked α := .error [⟨c, path⟩]

end Checked

/-- How many errors there are, as a heading for data of a kind. -/
def issuesHeading (n : Nat) (of : String) : String :=
  toString n ++ (if n = 1 then " validation error for " else " validation errors for ") ++ of

end Harvest
