import Harvest.Filter.Basic

/-
  Queries: what to look for in a page, and what to make of it.

  A query names elements by a selector, or stands for the element at hand; it takes their text, their markup, a
  property or an attribute; and it sends the value through filters.
-/
namespace Harvest

/-- A filter with its arguments, under the name by which it was called. -/
structure Step where
  name : String
  args : List String
  filter : Filter

/-- A value through one filter. -/
def Step.run (v : Value) (s : Step) : Except FilterFault Value := s.filter.run v s.args

/-- A value through filters, one after the other. -/
def runSteps : Value → List Step → Except FilterFault Value
  | v, [] => .ok v
  | v, s :: ss =>
    match s.run v with
    | .ok w => runSteps w ss
    | .error e => .error e

/-- What to look for and what to make of it. -/
structure Query where
  /-- Which elements; none for the element at hand. -/
  selector : Option String := none
  /-- What of them: an attribute, a property, the markup; none for the text. -/
  part : Option String := none
  steps : List Step := []
  /-- The text that the query was read from. -/
  expression : String := ""

namespace Query

/-- The part that is the markup inside an element. -/
def markupName : String := "html"

/-- The parts that are properties of the element itself. -/
def propertyNames : List String := ["tagName", "nodeName", "nodeType", "localName"]

/-- Whether the text is taken. -/
def takesText (q : Query) : Bool := q.part.isNone

/-- Whether the markup inside is taken. -/
def takesMarkup (q : Query) : Bool := q.part == some markupName

/-- Whether a property is taken. -/
def takesProperty (q : Query) : Bool := q.part.any propertyNames.contains

/-- The query with another selector. -/
def withSelector (q : Query) (s : Option String) : Query := { q with selector := s }

end Query
end Harvest
