import Harvest.Css.Reader
import Harvest.Markup.Element
import Harvest.Text.Casing

/-
  Which elements a selector matches.

    1. `Selector.matches` tests one element; the whole page may count, also above where a search begins.
    2. `select` lists the elements within another that match, in document order; `selectFirst?` is the first of them.
    3. The two together are the library of selectors of the program that runs.
  The page as a whole takes part as an element of its own, around the outermost elements, but is never selected.
-/
namespace Harvest.Css
open Text Markup

/-- Where a search begins: the root element of the page, if there is one, and the element that `:scope` means. -/
structure Search where
  root : Option Element
  scope : Option Element

/-- The search from an element. -/
def Search.from (e : Element) : Search :=
  let page := e.ancestors.getLastD e
  let root := page.childElements.head?
  ⟨root, if e.isDocument then root else some e⟩

/-! ## Single tests -/

/-- Names in lower case of ASCII. -/
def lowered (s : String) : List Char := lowerAscii s.toList

/-- Whether two names differ at most in the case of ASCII letters. -/
def sameName (a b : String) : Bool := lowered a == lowered b

/-- Text in a form that forgets case, if asked. -/
def folded (anyCase : Bool) (s : List Char) : List Char := if anyCase then s.map fold else s

/-- Without a line end that is the last character. -/
def dropLastLine (s : List Char) : List Char := if s.getLast? == some '\n' then s.dropLast else s

/-- Whether a text ends a value; a line end behind it does not count. -/
def endsValue (t v : List Char) : Bool := endsWith t v || endsWith t (dropLastLine v)

/-- Whether two values are the same; a line end behind the second does not count. -/
def sameValue (t v : List Char) : Bool := v == t || v == t ++ ['\n']

/-- The pieces of a value between single blanks of markup. -/
def wordPieces : List Char → List (List Char)
  | [] => [[]]
  | c :: s =>
    match wordPieces s with
    | [] => [[c]]
    | w :: ws => if isGap c then [] :: w :: ws else (c :: w) :: ws

/-- Whether a value holds a text as a word. -/
def holdsWord (t v : List Char) : Bool := !t.isEmpty && !t.any isGap && (wordPieces v).contains t

/-- Whether a value passes a comparison with a text. -/
def Comparison.passes (anyCase : Bool) (v : List Char) : Comparison → Bool
  | .present => true
  | .equals t => sameValue (folded anyCase t.toList) (folded anyCase v)
  | .differs t => !sameValue (folded anyCase t.toList) (folded anyCase v)
  | .hasWord t => holdsWord (folded anyCase t.toList) (folded anyCase v)
  | .dashed t =>
    sameValue (folded anyCase t.toList) (folded anyCase v)
      || startsWith (folded anyCase t.toList ++ ['-']) (folded anyCase v)
  | .begins t => startsWith (folded anyCase t.toList) (folded anyCase v)
  | .ends t => endsValue (folded anyCase t.toList) (folded anyCase v)
  | .contains t => Text.contains (folded anyCase t.toList) (folded anyCase v)

/-- Whether a comparison holds of an element without the attribute. -/
def Comparison.ofMissing : Comparison → Bool
  | .differs _ => true
  | _ => false

/-- The value of the first attribute of a name, in any case of its letters. -/
def attributeValue? (e : Element) (name : String) : Option String :=
  (e.tag.attributes.find? fun (k, _) => sameName k name).map (·.2)

/-- Whether an attribute of an element passes a comparison. -/
def attributePasses (e : Element) (name : String) (c : Comparison) (anyCase : Bool) : Bool :=
  match attributeValue? e name with
  | none => c.ofMissing
  | some v => c.passes (anyCase || sameName name "type") v.toList

/-- Whether an element has a class. -/
def hasClass (e : Element) (n : String) : Bool :=
  ((e.attribute? "class").map fun v => words v.toList).any (·.contains n.toList)

/-- Whether a position, counted from 1, is among the positions. -/
def Positions.has (p : Positions) (position : Nat) : Bool :=
  let rest := (position : Int) - p.offset
  if p.step = 0 then rest = 0 else rest % p.step = 0 && 0 ≤ rest * p.step

/-- The siblings on the side that positions are counted from. -/
def Positions.side (p : Positions) (e : Element) : List Element := if p.fromEnd then e.later else e.earlier

/-- Whether nodes hold neither elements nor text that counts. -/
def noContent (counts : Char → Bool) : List Node → Bool
  | [] => true
  | .text s :: ns => !s.toList.any counts && noContent counts ns
  | .comment _ :: ns => noContent counts ns
  | .element _ _ :: _ => false

/-- Whether an element is empty, but for blanks and comments. -/
def isEmpty (e : Element) : Bool := noContent (!isGap ·) e.children

/-- What stands beside an element. -/
def besides (e : Element) : List Node :=
  match e.way with
  | [] => []
  | l :: _ => l.before ++ l.after

/-- Whether an element is the root: the only one on its level, with no text beside it. -/
def isRoot (s : Search) (e : Element) : Bool :=
  s.root.any (·.sameAs e) && noContent (!isBlank ·) (besides e)

/-- The texts that are children of an element. -/
def ownTexts (e : Element) : List String := e.children.filterMap fun
  | .text s => some s
  | _ => none

/-- Whether the text of an element holds one of several texts. -/
def holdsText (e : Element) (own : Bool) (texts : List String) : Bool :=
  let content := if own then ownTexts e else [allText e.children]
  texts.any fun t => content.any fun s => Text.contains t.toList s.toList

/-- The form around an element, or else the page. -/
def formOf (e : Element) : Element := (e.ancestors.find? fun f => sameName f.name "form").getD (e.ancestors.getLastD e)

/-- Whether an attribute of an element has a value, in any case of its letters. -/
def isSet (e : Element) (name value : String) : Bool := (attributeValue? e name).any fun v => sameName v value

/-- Whether an element is a control that submits its form. -/
def submits (e : Element) : Bool := (sameName e.name "input" || sameName e.name "button") && isSet e "type" "submit"

/-- Whether an element is a radio button of a name that is checked. -/
def isCheckedRadio (e : Element) (name : Option String) : Bool :=
  sameName e.name "input" && isSet e "type" "radio" && attributeValue? e "name" == name
    && (attributeValue? e "checked").isSome

/-- Whether an element is in a state. -/
def State.holds (e : Element) : State → Bool
  | .textless => allText e.children == "" || allText e.children == "\n"
  | .submitsFirst =>
    -- a form that stands in another one ends the search
    let inForm := (formOf e).descendants.takeWhile fun f => !sameName f.name "form"
    (inForm.find? submits).any (·.sameAs e)
  | .unchosen =>
    let others := (formOf e).descendants.filter fun f => !f.sameAs e && (formOf f).sameAs (formOf e)
    !others.any fun f => isCheckedRadio f (attributeValue? e "name")
  | .known => !e.name.contains '-' || e.name.contains ':'

/-- The elements that stand to one as the first of a chain does to the second. -/
def Combinator.sources (c : Combinator) (e : Element) : List Element :=
  match c with
  | .descendant => e.ancestors
  | .child => e.ancestors.take 1
  | .next => e.earlier.take 1
  | .later => e.earlier

/-- The elements that stand to one as the second of a chain does to the first. -/
def Combinator.targets (c : Combinator) (e : Element) : List Element :=
  match c with
  | .descendant => e.descendants
  | .child => e.childElements
  | .next => e.later.take 1
  | .later => e.later

/-! ## Selectors -/

mutual

/-- Whether an element passes a test. -/
def Simple.matches (s : Search) (e : Element) : Simple → Bool
  | .never => false
  | .name n => n == "*" || sameName n e.name
  | .id n => e.attribute? "id" == some n
  | .ofClass n => hasClass e n
  | .attribute n c anyCase => attributePasses e n c anyCase
  | .root => isRoot s e
  | .scope => s.scope.any (·.sameAs e)
  | .empty => isEmpty e
  | .state st => st.holds e
  | .containsText own texts => holdsText e own texts
  | .nthOf p cs =>
    anyMatches s e cs && p.has (1 + (p.side e).countP fun f => anyMatches s f cs)
  | .nthChild p => p.has (1 + (p.side e).length)
  | .nthOfType p => p.has (1 + (p.side e).countP fun f => sameName f.name e.name)
  | .oneOf cs => anyMatches s e cs
  | .noneOf cs => !anyMatches s e cs
  | .leadsTo rs => anyLeads s e rs

/-- Whether an element passes all tests. -/
def allMatch (s : Search) (e : Element) : List Simple → Bool
  | [] => true
  | t :: ts => t.matches s e && allMatch s e ts

/-- Whether an element ends a chain. -/
def Complex.matches (s : Search) (e : Element) : Complex → Bool
  | .one ts => allMatch s e ts
  | .seq left c ts => allMatch s e ts && (c.sources e).any fun f => left.matches s f

/-- Whether an element ends one of several chains. -/
def anyMatches (s : Search) (e : Element) : List Complex → Bool
  | [] => false
  | c :: cs => c.matches s e || anyMatches s e cs

/-- Whether a chain starts from an element. -/
def Relative.leads (s : Search) (e : Element) : Relative → Bool
  | .last c ts => (c.targets e).any fun f => allMatch s f ts
  | .step c ts rest => (c.targets e).any fun f => allMatch s f ts && rest.leads s f

/-- Whether one of several chains starts from an element. -/
def anyLeads (s : Search) (e : Element) : List Relative → Bool
  | [] => false
  | r :: rs => r.leads s e || anyLeads s e rs

end

/-- Whether a selector matches an element. -/
def Selector.matches (s : Search) (e : Element) (sel : Selector) : Bool := anyMatches s e sel

/-- The elements within another that a selector matches, in document order. -/
def select (sel : Selector) (e : Element) : List Element :=
  let s := Search.from e
  e.descendants.filter fun f => Selector.matches s f sel

/-- The first element within another that a selector matches. -/
def selectFirst? (sel : Selector) (e : Element) : Option Element :=
  let s := Search.from e
  e.descendants.find? fun f => Selector.matches s f sel

/-- What a selector finds. -/
def Selector.finder (sel : Selector) : Finder := ⟨fun e => .ok (select sel e), fun e => .ok (selectFirst? sel e)⟩

instance : Library where
  read t := (Selector.read t).map Selector.finder

end Harvest.Css
