import Harvest.Text.Blank
import Harvest.Text.Search

/-
  The tree of a page: texts, comments, and elements with their children.

  Some attributes hold words; between these one space stands in the tree, whatever was written. Some elements hold text
  of a kind of their own, such as scripts; text of that kind counts only when the element itself is asked.
-/
namespace Harvest.Markup

/-- The name and the attributes of an element. -/
structure Tag where
  name : String
  attributes : List (String × String) := []
  deriving DecidableEq, Repr, Inhabited

/-- A node of a page. -/
inductive Node where
  | text (s : String)
  | comment (s : String)
  | element (tag : Tag) (children : List Node)
  deriving Repr, Inhabited

/-- The value of an attribute. -/
def Tag.attribute? (t : Tag) (name : String) : Option String := t.attributes.lookup name

/-- Elements that never have children. -/
def voidNames : List String :=
  ["area", "base", "br", "col", "embed", "hr", "img", "input", "keygen", "link", "menuitem", "meta", "param", "source",
   "track", "wbr", "basefont", "bgsound", "command", "frame", "image", "isindex", "nextid", "spacer"]

/-- Elements whose content is no markup. -/
def rawNames : List String := ["script", "style"]

/-- Elements in which blank text is kept as it is. -/
def keepingNames : List String := ["pre", "textarea"]

/-- Elements whose text is of a kind of its own. -/
def apartNames : List String := ["rt", "rp", "style", "script", "template"]

/-! ## Attributes that hold words -/

/-- The attributes that hold words on any element. -/
def wordAttributes : List String := ["class", "accesskey", "dropzone"]

/-- The attributes that hold words on certain elements. -/
def wordAttributesOf : List (String × String) :=
  [("a", "rel"), ("a", "rev"), ("link", "rel"), ("link", "rev"), ("td", "headers"), ("th", "headers"),
   ("form", "accept-charset"), ("object", "archive"), ("area", "rel"), ("icon", "sizes"), ("iframe", "sandbox"),
   ("output", "for")]

/-- Whether an attribute holds words. -/
def holdsWords (element name : String) : Bool :=
  wordAttributes.contains name || wordAttributesOf.contains (element, name)

/-- Words with one space between them. -/
def oneSpaced (s : String) : String := String.ofList (Text.join [' '] (Text.words s.toList))

/-- A tag as it was written, with the words of attributes set apart by one space. -/
def Tag.ofWritten (name : String) (attributes : List (String × String)) : Tag where
  name
  attributes := attributes.map fun (k, v) => (k, if holdsWords name k then oneSpaced v else v)

/-! ## Size and text -/

/-- How many elements a list of nodes has in it. -/
def countElements : List Node → Nat
  | [] => 0
  | .element _ cs :: ns => 1 + countElements cs + countElements ns
  | .text _ :: ns => countElements ns
  | .comment _ :: ns => countElements ns

/-- The kind of text inside an element: the innermost element that sets its text apart, or the empty name. -/
def kindWithin (around : String) (t : Tag) : String := if apartNames.contains t.name then t.name else around

mutual

/-- The texts of one kind in a node; `around` is the kind of the texts around it. -/
def Node.textOf (kind around : String) : Node → String
  | .text s => if around == kind then s else ""
  | .comment _ => ""
  | .element t cs => Markup.textOf kind (kindWithin around t) cs

/-- The texts of one kind in a list of nodes. -/
def textOf (kind around : String) : List Node → String
  | [] => ""
  | n :: ns => n.textOf kind around ++ textOf kind around ns

end

/-- All texts in a list of nodes, of every kind. -/
def allText : List Node → String
  | [] => ""
  | .text s :: ns => s ++ allText ns
  | .comment _ :: ns => allText ns
  | .element _ cs :: ns => allText cs ++ allText ns

end Harvest.Markup
