import Harvest.Css.Selector

/-
  The states of form controls, written as selectors.

  Most of them are a matter of names and attributes: what is checked, disabled, required or can be written to. Where a
  form or a text counts too, the last alternative asks for a `State`.
-/
namespace Harvest.Css.Controls

/-- The test for an attribute, whatever its value is. -/
def has (name : String) : Simple := .attribute name .present false

/-- The test for an attribute with a value. -/
def set (name value : String) : Simple := .attribute name (.equals value) false

/-- The test for any of several compounds. -/
def anyOf (compounds : List (List Simple)) : Simple := .oneOf (compounds.map .one)

/-- The test for none of several compounds. -/
def without (compounds : List (List Simple)) : Simple := .noneOf (compounds.map .one)

/-- The test for any of several names. -/
def named (names : List String) : Simple := anyOf (names.map fun n => [.name n])

/-- The test for any of several types of control. -/
def typed (types : List String) : Simple := anyOf (types.map fun t => [set "type" t])

/-- The compounds of the controls that a set of fields disables with itself. -/
def fields : List (List Simple) :=
  [.name "input", without [[set "type" "hidden"]]] :: ["button", "select", "textarea", "fieldset"].map fun n => [.name n]

/-- The compounds of all controls that can be disabled. -/
def controls : List (List Simple) := fields ++ [[.name "optgroup"], [.name "option"]]

/-- Chosen: a box, a button or an option. -/
def checked : Selector :=
  [.one [.name "input", typed ["checkbox", "radio"], has "checked"], .one [.name "option", has "selected"]]

/-- Chosen from the beginning, and what submits a form first. -/
def preset : Selector :=
  [.one [.oneOf checked],
   .seq (.one [.name "form"]) .descendant [named ["button", "input"], set "type" "submit", .state .submitsFirst]]

/-- Neither chosen nor not. -/
def indeterminate : Selector :=
  let radio : List Simple := [.name "input", set "type" "radio"]
  let unchecked := without [[has "checked"]]
  [.one [.name "input", set "type" "checkbox", has "indeterminate"],
   .one (radio ++ [anyOf [[without [[has "name"]]], [set "name" ""]], unchecked]),
   .one [.name "progress", without [[has "value"]]],
   .one (radio ++ [has "name", without [[set "name" ""]], unchecked, .state .unchosen])]

/-- Disabled by itself, with its group, or with its set of fields, unless it stands in the first legend of that. -/
def disabled : Selector :=
  let outer : Complex := .one [.name "fieldset", has "disabled"]
  let firstLegend : List Simple := [.name "legend", .nthOfType ⟨0, 1, false⟩]
  [.one [anyOf controls, has "disabled"],
   .seq (.one [.name "optgroup", has "disabled"]) .child [.name "option"],
   .seq outer .child [anyOf fields],
   .seq (.seq outer .child [without [firstLegend]]) .descendant [anyOf fields]]

/-- What could be disabled and is not. -/
def enabled : Selector := [.one [anyOf controls, .noneOf disabled]]

/-- The names of the controls that can be required. -/
def requirable : Simple := named ["input", "select", "textarea"]

/-- What has to be filled in. -/
def required : Selector := [.one [requirable, has "required"]]

/-- What need not be filled in. -/
def optional : Selector := [.one [requirable, without [[has "required"]]]]

/-- The test for a type of control, or for none. -/
def typedOrPlain (types : List String) : Simple :=
  anyOf ([without [[has "type"]]] :: ("" :: types).map fun t => [set "type" t])

/-- What can be written to. -/
def readWrite : Selector :=
  let input : List Simple := [.name "input", typedOrPlain ["date", "datetime-local", "email", "month", "number",
    "password", "search", "tel", "text", "time", "url", "week"]]
  [.one [anyOf [[.name "textarea"], input], .noneOf (.one [has "readonly"] :: disabled)],
   .one [anyOf [[set "contenteditable" ""], [.attribute "contenteditable" (.equals "true") true]]]]

/-- What cannot be written to. -/
def readOnly : Selector := [.one [.noneOf readWrite]]

/-- Controls that show the text they hold as long as nothing is filled in. -/
def placeholderShown : Selector :=
  let hasPlaceholder : List Simple := [has "placeholder", without [[set "placeholder" ""]]]
  let types := ["text", "search", "url", "tel", "email", "password", "number"]
  [.one (.name "input" :: typedOrPlain types :: hasPlaceholder ++ [anyOf [[without [[has "value"]]], [set "value" ""]]]),
   .one (.name "textarea" :: hasPlaceholder ++ [.state .textless])]

end Harvest.Css.Controls
