/-
  Selectors as trees.

  A compound is a list of tests on one element. A complex selector is a chain of compounds, read from the element
  matched back to the ones it depends on; a relative one goes forward from the element at hand. A selector is a list of
  complex selectors, any of which may match.
-/
namespace Harvest.Css

/-- How two elements of a chain stand to each other. -/
inductive Combinator where
  /-- The second lies within the first. -/
  | descendant
  /-- The second is a child of the first. -/
  | child
  /-- The second comes next under the same parent. -/
  | next
  /-- The second comes later under the same parent. -/
  | later
  deriving DecidableEq, Repr

/-- A test on the value of an attribute. -/
inductive Comparison where
  | present
  | equals (text : String)
  | differs (text : String)
  | hasWord (text : String)
  | dashed (text : String)
  | begins (text : String)
  | ends (text : String)
  | contains (text : String)
  deriving DecidableEq, Repr

/-- The positions `step · n + offset` for `n` from 0 on, counted from either end. -/
structure Positions where
  step : Int
  offset : Int
  fromEnd : Bool
  deriving DecidableEq, Repr

/-- A state of an element that its name and its attributes do not tell alone. -/
inductive State where
  /-- It has no text, or a line end only. -/
  | textless
  /-- It is the first control of its form that submits it. -/
  | submitsFirst
  /-- No other radio button of its name is checked in its form. -/
  | unchosen
  /-- Its name is none that a page makes up. -/
  | known
  deriving DecidableEq, Repr

mutual

/-- A test on one element. -/
inductive Simple where
  | never
  | name (n : String)
  | id (n : String)
  | ofClass (n : String)
  | attribute (name : String) (comparison : Comparison) (anyCase : Bool)
  | root
  | scope
  | empty
  | state (s : State)
  | containsText (own : Bool) (texts : List String)
  /-- Its position among the siblings that a selector matches. -/
  | nthOf (positions : Positions) (among : List Complex)
  /-- Its position among all siblings. -/
  | nthChild (positions : Positions)
  /-- Its position among the siblings of its name. -/
  | nthOfType (positions : Positions)
  | oneOf (alternatives : List Complex)
  | noneOf (alternatives : List Complex)
  | leadsTo (alternatives : List Relative)

/-- A chain of compounds that ends at the element matched. -/
inductive Complex where
  | one (tests : List Simple)
  | seq (left : Complex) (combinator : Combinator) (tests : List Simple)

/-- A chain of compounds that starts from the element at hand. -/
inductive Relative where
  | last (combinator : Combinator) (tests : List Simple)
  | step (combinator : Combinator) (tests : List Simple) (rest : Relative)

end

/-- A selector: any of its alternatives may match. -/
abbrev Selector := List Complex

end Harvest.Css
