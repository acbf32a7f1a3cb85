import Harvest.Markup.Element
import Harvest.Markup.Page
import Harvest.Markup.Tree

/-
  Loading a page.

  A library reads markup by the parser of a name, or refuses it; nothing else of it is known to the program. The library
  of the program that runs knows two ways to read markup: as it is written, where it rejects marked sections of no known
  kind, or as a page, with the parts that were left out. It does not read XML.
-/
namespace Harvest.Markup

/-- Why markup is refused. -/
inductive Fault where
  /-- No parser has the name. -/
  | unknownParser (name : String)
  /-- The parser gives up. -/
  | raised (kind message : String)
  deriving DecidableEq, Repr

namespace Fault

/-- The text of a fault. -/
def message : Fault → String
  | unknownParser n =>
    "Couldn't find a tree builder with the features you requested: " ++ n ++ ". Do you need to install a parser library?"
  | raised _ m => m

/-- The name of the kind of a fault. -/
def kind : Fault → String
  | unknownParser _ => "FeatureNotFound"
  | raised k _ => k

end Fault

/-- A library that reads markup by the parser of a name. -/
class Library where
  read : (parser markup : String) → Except Fault Element

/-- The page that a text writes down, by the parser of a name. -/
def loadDocument [Library] (parser markup : String) : Except Fault Element := Library.read parser markup

/-- A way to read markup. -/
inductive Parser where
  | asWritten
  | page
  deriving DecidableEq, Repr

namespace Parser

/-- The name of the parser that is used when none is named. -/
def standardName : String := "lxml"

/-- The names of the parser, and of what it is good at. -/
def names : Parser → List String
  | asWritten => ["html.parser", "strict"]
  | page => [standardName, "lxml-html", "html", "fast", "permissive"]

/-- The parser of a name. -/
def named? (name : String) : Option Parser := [page, asWritten].find? (·.names.contains name)

/-- The text without a byte order mark in front. -/
def dropMark : List Char → List Char
  | '\ufeff' :: s => s
  | s => s

/-- The fault of markup that a parser rejects. -/
def rejection (message : String) : Fault :=
  .raised "ParserRejectedMarkup"
    ("The markup you provided was rejected by the parser. Trying a different parser or a different encoding may help.\n\n"
      ++ "Original error(s) from parser:\n AssertionError: " ++ message)

/-- What is wrong about the first bad section. -/
def badSection? (ts : List Token) : Option String :=
  ts.findSome? fun
    | .badSection m => some m
    | _ => none

/-- The nodes of a page. -/
def nodes (p : Parser) (s : List Char) : Except Fault (List Node) :=
  match p with
  | asWritten =>
    let ts := tokens s
    match badSection? ts with
    | some m => .error (rejection m)
    | none => .ok (treeOf ts)
  | page => .ok (treeOf (pageTokens (tokens (dropMark s))))

/-- The page that a text writes down. -/
def read (p : Parser) (s : String) : Except Fault Element := (p.nodes s.toList).map Element.document

end Parser

instance : Library where
  read parser markup :=
    match Parser.named? parser with
    | some p => p.read markup
    | none => .error (.unknownParser parser)

end Harvest.Markup
