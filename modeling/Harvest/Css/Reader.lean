import Harvest.Css.Controls
import Harvest.Css.Library
import Harvest.Css.Token

/-
  Reading selectors.

  Tokens are taken one after the other, and the first one that does not fit ends the reading. A compound begins with the
  name of an element, if it has one. `:is` and `:where` forgive empty alternatives, which match nothing.

  A fault is either a plain one, for a text that is no selector, or tells of a pseudo-element or a rule, which are
  understood but not supported, and where they stand, or of a number that is none.

  Ranges of values (`:in-range`, `:out-of-range`) are left out and taken for no selectors. Languages and directions of
  text are read, but no element has one.
-/
namespace Harvest.Css
open Text

namespace Fault

/-- The kind of fault of what is understood but not supported. -/
def unsupportedKind : String := "NotImplementedError"

/-- The fault of a pseudo-element at a position. -/
def pseudoElement (position : Nat) : Fault :=
  .raised unsupportedKind ("Pseudo-element found at position " ++ toString position)

/-- The fault of a rule at a position. -/
def atRule (position : Nat) : Fault := .raised unsupportedKind ("At-rules found at position " ++ toString position)

end Fault

/-- Pseudo-classes that no element of a page at rest belongs to. -/
def restlessNames : List String :=
  ["active", "autofill", "current", "focus", "focus-visible", "focus-within", "future", "host", "hover", "local-link",
   "past", "paused", "playing", "target", "target-within", "user-invalid", "visited"]

/-- The position of an only element, from either end. -/
def firstFrom (fromEnd : Bool) : Positions := ⟨0, 1, fromEnd⟩

/-- The tests of a pseudo-class without arguments. -/
def plainTests? (name : String) : Option (List Simple) :=
  match name with
  | "root" => some [.root]
  | "scope" => some [.scope]
  | "empty" => some [.empty]
  | "first-child" => some [.nthChild (firstFrom false)]
  | "last-child" => some [.nthChild (firstFrom true)]
  | "only-child" => some [.nthChild (firstFrom false), .nthChild (firstFrom true)]
  | "first-of-type" => some [.nthOfType (firstFrom false)]
  | "last-of-type" => some [.nthOfType (firstFrom true)]
  | "only-of-type" => some [.nthOfType (firstFrom false), .nthOfType (firstFrom true)]
  | "link" | "any-link" =>
    some [.oneOf [.one [.name "a"], .one [.name "area"]], .attribute "href" .present false]
  | "checked" => some [.oneOf Controls.checked]
  | "default" => some [.oneOf Controls.preset]
  | "indeterminate" => some [.oneOf Controls.indeterminate]
  | "disabled" => some [.oneOf Controls.disabled]
  | "enabled" => some [.oneOf Controls.enabled]
  | "required" => some [.oneOf Controls.required]
  | "optional" => some [.oneOf Controls.optional]
  | "read-write" => some [.oneOf Controls.readWrite]
  | "read-only" => some [.oneOf Controls.readOnly]
  | "placeholder-shown" => some [.oneOf Controls.placeholderShown]
  | "defined" => some [.state .known]
  | n => if restlessNames.contains n then some [.never] else none

/-- Lists that stand in parentheses: whether empty alternatives are forgiven, and the test they make. -/
def listTest? (name : String) : Option (Bool × (List Complex → Simple)) :=
  match name with
  | "is" | "where" => some (true, .oneOf)
  | "not" => some (false, .noneOf)
  | "matches" | "contains" | "-soup-contains" | "-soup-contains-own" => some (false, .oneOf)
  | "current" | "host" | "host-context" => some (false, fun _ => .never)
  | _ => none

/-- The test that an element name makes; only the star stands for a namespace. -/
def nameTest (space : Option String) (n : String) : Simple :=
  match space with
  | none | some "*" => .name n
  | some _ => .never

/-- A compound with what stands before it in its chain. -/
def chain (left : Option (Complex × Combinator)) (tests : List Simple) : Complex :=
  match left with
  | none => .one tests
  | some (l, c) => .seq l c tests

/-- A list of alternatives under way: those that are done, the chain before the compound under way, and that compound;
no compound means that nothing of it has been read. -/
structure Progress where
  done : List Complex := []
  left : Option (Complex × Combinator) := none
  tests : Option (List Simple) := none

/-- One more test for the compound under way. -/
def Progress.push (p : Progress) (ts : List Simple) : Progress := { p with tests := some (p.tests.getD [] ++ ts) }

/-- The alternatives after a comma. -/
def Progress.comma? (forgiving : Bool) (p : Progress) : Option Progress :=
  match p.tests with
  | some ts => some { done := p.done ++ [chain p.left ts] }
  | none => if forgiving then some { done := p.done ++ [.one [.never]] } else none

/-- The alternatives after a combinator. -/
def Progress.combine? (forgiving : Bool) (p : Progress) : Option Combinator → Option Progress
  | none => p.comma? forgiving
  | some c => p.tests.map fun ts => { p with left := some (chain p.left ts, c), tests := none }

/-- The alternatives at the end of the list. -/
def Progress.finish? (forgiving : Bool) (p : Progress) : Option (List Complex) :=
  match p.tests with
  | some ts => some (p.done ++ [chain p.left ts])
  | none =>
    if forgiving && (p.done.isEmpty || p.left.isNone) then some (p.done ++ [.one [.never]]) else none

/-- The chains of a relative list, from their compounds. -/
def relativeOf : List (Combinator × List Simple) → Option Relative
  | [] => none
  | [(c, ts)] => some (.last c ts)
  | (c, ts) :: r => (relativeOf r).map (.step c ts)

/-- A relative list under way: the chains that are done, the compounds of the one under way, the combinator before the
compound under way, and that compound. -/
structure RelativeProgress where
  done : List Relative := []
  steps : List (Combinator × List Simple) := []
  combinator : Combinator := .descendant
  tests : Option (List Simple) := none

/-- One more test for the compound under way. -/
def RelativeProgress.push (p : RelativeProgress) (ts : List Simple) : RelativeProgress :=
  { p with tests := some (p.tests.getD [] ++ ts) }

/-- The chains at the end of the list or at a comma. -/
def RelativeProgress.finish? (p : RelativeProgress) : Option (List Relative) :=
  match p.tests with
  | none => none
  | some ts => (relativeOf (p.steps ++ [(p.combinator, ts)])).map fun r => p.done ++ [r]

/-- The chains after a combinator. -/
def RelativeProgress.combine? (p : RelativeProgress) : Option Combinator → Option RelativeProgress
  | none => p.finish?.map fun done => { done }
  | some c =>
    match p.tests with
    | some ts => some { p with steps := p.steps ++ [(p.combinator, ts)], combinator := c, tests := none }
    | none => if p.combinator = .descendant then some { p with combinator := c } else none

/-- A result, or the plain fault. -/
def orInvalid {α : Type} : Option α → Except Fault α
  | some a => .ok a
  | none => .error .invalid

/-- What a list does next. -/
inductive Move where
  /-- A finished test. -/
  | tests (ts : List Simple) (rest : List Char)
  | name (t : Simple) (rest : List Char)
  | combine (c : Option Combinator) (rest : List Char)
  | close (rest : List Char)

mutual

/-- Takes the next token, with the list inside its parentheses if it opens some. `length` is the length of the whole
selector, and `fuel` bounds the steps. -/
def readMove (length : Nat) : Nat → List Char → Except Fault Move
  | 0, _ => .error .invalid
  | fuel + 1, s =>
    match tokenAt? s with
    | none => .error .invalid
    | some (.pseudoElement, _) => .error (.pseudoElement (length - s.length))
    | some (.atRule, _) => .error (.atRule (length - s.length))
    | some (.refusal f, _) => .error f
    | some (.close, r) => .ok (.close r)
    | some (.combine c, r) => .ok (.combine c r)
    | some (.name space n, r) => .ok (.name (nameTest space n) r)
    | some (.simple t, r) => .ok (.tests [t] r)
    | some (.nthOf p, r) => do
      let (cs, r) ← readList length fuel false {} r
      return .tests [.nthOf p cs] r
    | some (.pseudo n false, r) => do return .tests (← orInvalid (plainTests? n)) r
    | some (.pseudo n true, r) =>
      if n == "has" then do
        let (rs, r) ← readRelative length fuel {} r
        return .tests [.leadsTo rs] r
      else do
        let (forgiving, make) ← orInvalid (listTest? n)
        let (cs, r) ← readList length fuel forgiving {} r
        return .tests [make cs] r

/-- Reads a list inside parentheses up to the closing one. -/
def readList (length : Nat) : Nat → Bool → Progress → List Char → Except Fault (List Complex × List Char)
  | 0, _, _, _ => .error .invalid
  | fuel + 1, forgiving, p, s => do
    match ← readMove length fuel s with
    | .tests ts r => readList length fuel forgiving (p.push ts) r
    | .name t r =>
      if p.tests.isSome then throw .invalid
      readList length fuel forgiving (p.push [t]) r
    | .combine c r => readList length fuel forgiving (← orInvalid (p.combine? forgiving c)) r
    | .close r => return (← orInvalid (p.finish? forgiving), r)

/-- Reads a relative list inside parentheses up to the closing one. -/
def readRelative (length : Nat) : Nat → RelativeProgress → List Char → Except Fault (List Relative × List Char)
  | 0, _, _ => .error .invalid
  | fuel + 1, p, s => do
    match ← readMove length fuel s with
    | .tests ts r => readRelative length fuel (p.push ts) r
    | .name t r =>
      if p.tests.isSome then throw .invalid
      readRelative length fuel (p.push [t]) r
    | .combine c r => readRelative length fuel (← orInvalid (p.combine? c)) r
    | .close r => return (← orInvalid p.finish?, r)

end

/-- Reads the whole of a selector. -/
def readWhole (length : Nat) : Nat → Progress → List Char → Except Fault Selector
  | 0, _, _ => .error .invalid
  | fuel + 1, p, s =>
    if (skipGaps s).isEmpty then orInvalid (p.finish? false) else do
    match ← readMove length fuel s with
    | .tests ts r => readWhole length fuel (p.push ts) r
    | .name t r =>
      if p.tests.isSome then throw .invalid
      readWhole length fuel (p.push [t]) r
    | .combine c r => readWhole length fuel (← orInvalid (p.combine? false c)) r
    | .close _ => throw .invalid

/-- The selector that a text writes down. -/
def Selector.read (text : String) : Except Fault Selector :=
  let s := text.toList.map fun c => if c == '\x00' then '\ufffd' else c
  readWhole s.length (2 * s.length + 2) {} (skipGaps s)

end Harvest.Css
