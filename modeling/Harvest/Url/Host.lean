import Harvest.Text.Search

/-
  Hosts in brackets: an address of version 6, perhaps with a scope, or an address of a future version.
-/
namespace Harvest.Url
open Harvest.Text

/-- What is wrong with a host in brackets. -/
inductive HostFault where
  | notAddress
  | versionFour
  | futureVersion
  deriving DecidableEq, Repr

/-- A hexadecimal digit. -/
def isHex (c : Char) : Bool := c.isDigit || ('a' ≤ c && c ≤ 'f') || ('A' ≤ c && c ≤ 'F')

/-- A number below 256 without zeros in front. -/
def isOctet (s : List Char) : Bool :=
  !s.isEmpty && s.all Char.isDigit && s.length ≤ 3 && (s == ['0'] || s.head? != some '0')
    && s.foldl (fun n c => 10 * n + (c.toNat - 48)) 0 ≤ 255

/-- Four octets with points between them. -/
def isVersionFour (s : List Char) : Bool :=
  let ps := cutAt '.' s
  ps.length == 4 && ps.all isOctet

/-- Up to four hexadecimal digits. -/
def isGroup (s : List Char) : Bool := !s.isEmpty && s.all isHex && s.length ≤ 4

/-- The groups of an address; an address of version 4 at the end counts for two. -/
def groups? (s : List Char) : Option (List (List Char)) :=
  let ps := cutAt ':' s
  if ps.length < 3 then none else
  let last := ps.getLastD []
  let ps := if last.contains '.' then
      (if isVersionFour last then some (ps.dropLast ++ [['0'], ['0']]) else none)
    else some ps
  ps.bind fun ps => if 9 < ps.length then none else some ps

/-- The positions of empty groups that are neither first nor last. -/
def gaps (ps : List (List Char)) : List Nat :=
  (List.range ps.length).filter fun i => 0 < i && i + 1 < ps.length && (ps.getD i []).isEmpty

/-- Whether groups with a gap at `i` make an address. -/
def fillsGap (ps : List (List Char)) (i : Nat) : Bool :=
  let high := ps.take i
  let low := ps.drop (i + 1)
  let high' := if high.head? == some [] then high.drop 1 else high
  let low' := if low.getLast? == some [] then low.dropLast else low
  (high.head? != some [] || high'.isEmpty) && (low.getLast? != some [] || low'.isEmpty)
    && high'.length + low'.length ≤ 7 && high'.all isGroup && low'.all isGroup

/-- Eight groups, or fewer with one gap. -/
def isVersionSix (s : List Char) : Bool :=
  let (address, scope) := splitFirst '%' s
  let scopeOk := match scope with
    | none => true
    | some z => !z.isEmpty && !z.contains '%'
  scopeOk && !s.contains '/' &&
    match groups? address with
    | none => false
    | some ps =>
      match gaps ps with
      | [] => ps.length == 8 && ps.all isGroup
      | [i] => fillsGap ps i
      | _ => false

/-- A `v`, hexadecimal digits, a point and a rest on one line. -/
def isFutureVersion (s : List Char) : Bool :=
  let rest := (s.drop 1).dropWhile isHex
  s.head? == some 'v' && rest.length < s.length - 1 && rest.head? == some '.' && 1 < rest.length
    && !(rest.drop 1).contains '\n'

/-- The fault of a host that stood in brackets. -/
def hostFault? (s : List Char) : Option HostFault :=
  if s.head? == some 'v' then (if isFutureVersion s then none else some .futureVersion)
  else if isVersionFour s then some .versionFour
  else if isVersionSix s then none
  else some .notAddress

end Harvest.Url
