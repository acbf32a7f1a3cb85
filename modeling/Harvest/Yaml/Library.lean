import Harvest.Value.Basic
import Harvest.Yaml.Fault

/-
  What the program asks of a library for YAML.

  The library reads a text and gives the value of its one document, or refuses the text. It can refuse it as YAML, which
  the program expects, or with a fault of another kind (`Fault.isSyntactic`).

  A document can name a collection inside the collection itself. No finite value holds itself, so such a collection is
  written out within itself once. Where it stands in there again the value tells its kind only, one of
  `collectionKinds`; no other value is told in this way.
-/
namespace Harvest.Yaml

/-- A library for YAML. -/
class Library where
  read : String → Except Fault Value

/-- The kind of a mapping or of a sequence. -/
def collectionKind (isMapping : Bool) : String := if isMapping then "dict" else "list"

/-- The kinds under which a collection stands within itself. -/
def collectionKinds : List String := [collectionKind true, collectionKind false]

end Harvest.Yaml
