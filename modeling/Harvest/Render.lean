import Harvest.Query.Basic
import Harvest.Markup.Element
import Harvest.Text.Casing

/-
  What a query takes from an element: text, markup, a property of the element, or an attribute; absence if there is no
  such thing. The filters of the query then work on it.
-/
namespace Harvest
open Markup

/-- The name that the page as a whole shows. -/
def pageName : String := "root"

/-- The name of an element as a property. -/
def shownName (e : Element) : String := if e.isDocument then pageName else e.name

/-- A property of an element. -/
def property (e : Element) (name : String) : Value :=
  match name with
  | "tagName" | "localName" => .text (shownName e)
  | "nodeName" => .text (String.ofList (Text.upper (shownName e).toList))
  | "nodeType" => .int (if e.isDocument then 9 else 1)
  | _ => .null

/-- An attribute of an element. -/
def attributeValue (e : Element) (name : String) : Value :=
  match e.attribute? name with
  | some v => .text v
  | none => .null

/-- What a query takes from an element, before its filters. -/
def Query.raw (q : Query) (e : Element) : Value :=
  match q.part with
  | none => .text e.text
  | some p =>
    if q.takesMarkup then .text e.markup
    else if q.takesProperty then property e p
    else attributeValue e p

/-- What a query makes of an element. -/
def Query.render (q : Query) (e : Element) : Except FilterFault Value := runSteps (q.raw e) q.steps

end Harvest
