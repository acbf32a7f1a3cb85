/-
  Finding, cutting and replacing one text inside another, over lists of characters.

    1. `dropText? t s` is what follows `t` when `s` begins with `t`.
    2. `cut sep s` is `s` cut at every occurrence of `sep`, taken from the left without overlap.
    3. `replaceAll old new s` puts `new` for every such occurrence; the empty text occurs before every character
       and at the end.
-/
namespace Harvest.Text

/-- What follows `t` at the front of `s`. -/
def dropText? : List Char → List Char → Option (List Char)
  | [], s => some s
  | _ :: _, [] => none
  | a :: t, b :: s => if a = b then dropText? t s else none

/-- Whether `s` begins with `t`. -/
def startsWith (t s : List Char) : Bool := (dropText? t s).isSome

/-- Whether `s` ends with `t`. -/
def endsWith (t s : List Char) : Bool := startsWith t.reverse s.reverse

/-- Whether `t` occurs in `s`. -/
def contains (t : List Char) : List Char → Bool
  | [] => t.isEmpty
  | c :: s => startsWith t (c :: s) || contains t s

/-- The pieces of a text between occurrences of `sep`: `skip` characters still belong to the occurrence just met,
and `piece` is the piece under way, read backwards. -/
def cutFrom (sep : List Char) : Nat → List Char → List Char → List (List Char)
  | _, piece, [] => [piece.reverse]
  | skip + 1, piece, _ :: s => cutFrom sep skip piece s
  | 0, piece, c :: s =>
    if startsWith sep (c :: s) then piece.reverse :: cutFrom sep (sep.length - 1) [] s
    else cutFrom sep 0 (c :: piece) s

/-- The pieces of `s` between occurrences of the text `sep`, which is not empty. -/
def cut (sep s : List Char) : List (List Char) := cutFrom sep 0 [] s

/-- The texts of a list with `sep` between them. -/
def join (sep : List Char) : List (List Char) → List Char
  | [] => []
  | [s] => s
  | s :: t :: r => s ++ sep ++ join sep (t :: r)

/-- `new` in place of every occurrence of `old`. -/
def replaceAll (old new s : List Char) : List Char :=
  if old.isEmpty then new ++ s.flatMap (fun c => c :: new) else join new (cut old s)

/-- The pieces of `s` at every single character `c`. -/
def cutAt (c : Char) (s : List Char) : List (List Char) := cut [c] s

/-- What stands before the first `c`, and what follows it if there is one. -/
def splitFirst (c : Char) : List Char → List Char × Option (List Char)
  | [] => ([], none)
  | d :: s => if d = c then ([], some s) else
    let (a, b) := splitFirst c s
    (d :: a, b)

/-- What stands before the last `c`, and what follows it if there is one. -/
def splitLast (c : Char) (s : List Char) : Option (List Char × List Char) :=
  match splitFirst c s.reverse with
  | (a, some b) => some (b.reverse, a.reverse)
  | (_, none) => none

end Harvest.Text
