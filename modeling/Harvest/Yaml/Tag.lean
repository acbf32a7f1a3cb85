import Harvest.Regex.Reader
import Harvest.Regex.Match

/-
  Tags of YAML nodes, and the tags that plain scalars have by their text.
-/
namespace Harvest.Yaml

/-- What kind of value a node has. `unknown` is a tag without meaning here. -/
inductive Tag where
  | null
  | bool
  | int
  | float
  | str
  | timestamp
  | binary
  | seq
  | map
  | set
  | omap
  | pairs
  /-- A key whose value is merged into the mapping. -/
  | merge
  /-- A key that stands for the value of the mapping as a whole. -/
  | value
  | unknown
  deriving DecidableEq, Repr

namespace Tag

/-- What the handle `!!` stands for. -/
def stem : String := "tag:yaml.org,2002:"

/-- The tag of a full name. -/
def ofName (n : String) : Tag :=
  match Text.dropText? stem.toList n.toList with
  | none => unknown
  | some r =>
    match String.ofList r with
    | "null" => null
    | "bool" => bool
    | "int" => int
    | "float" => float
    | "str" => str
    | "timestamp" => timestamp
    | "binary" => binary
    | "seq" => seq
    | "map" => map
    | "set" => set
    | "omap" => omap
    | "pairs" => pairs
    | "merge" => merge
    | "value" => value
    | _ => unknown

/-- The expression that a text writes down. -/
def expression (s : String) : Regex.Expression :=
  match Regex.Expression.read s with
  | .ok e => e
  | .error _ => ⟨s, .nothing, 0⟩

/-- Integers: in base 2, 8, 10 and 16, and in base 60 with colons. -/
def integers : Regex.Expression := expression
  "[-+]?0b[0-1_]+$|[-+]?0[0-7_]+$|[-+]?(?:0|[1-9][0-9_]*)$|[-+]?0x[0-9a-fA-F_]+$|[-+]?[1-9][0-9_]*(?::[0-5]?[0-9])+$"

/-- Numbers with a point: in base 10, with an exponent or none, in base 60 with colons, and the words. -/
def fractions : Regex.Expression := expression
  ("[-+]?[0-9][0-9_]*\\.[0-9_]*(?:[eE][-+][0-9]+)?$|\\.[0-9][0-9_]*(?:[eE][-+][0-9]+)?$"
    ++ "|[-+]?[0-9][0-9_]*(?::[0-5]?[0-9])+\\.[0-9_]*$|[-+]?\\.(?:inf|Inf|INF)$|\\.(?:nan|NaN|NAN)$")

/-- Dates, and dates with a time. -/
def timestamps : Regex.Expression := expression
  ("[0-9][0-9][0-9][0-9]-[0-9][0-9]-[0-9][0-9]$|[0-9][0-9][0-9][0-9]-[0-9][0-9]?-[0-9][0-9]?"
    ++ "(?:[Tt]|[ \\t]+)[0-9][0-9]?:[0-9][0-9]:[0-9][0-9](?:\\.[0-9]*)?"
    ++ "(?:[ \\t]*(?:Z|[-+][0-9][0-9]?(?::[0-9][0-9])?))?$")

/-- The words for truth values. -/
def truthWords : List String :=
  ["yes", "Yes", "YES", "no", "No", "NO", "true", "True", "TRUE", "false", "False", "FALSE", "on", "On", "ON", "off",
   "Off", "OFF"]

/-- The words for absence. -/
def nullWords : List String := ["", "~", "null", "Null", "NULL"]

/-- The tag that a plain scalar has by its text. -/
def ofPlain (s : String) : Tag :=
  let cs := s.toList
  let fits (e : Regex.Expression) : Bool := (e.matchAt? cs).isSome
  if truthWords.contains s then bool
  else if nullWords.contains s then null
  else if s == "<<" then merge
  else if s == "=" then value
  else if fits fractions then float
  else if fits integers then int
  else if fits timestamps then timestamp
  else str

end Tag
end Harvest.Yaml
