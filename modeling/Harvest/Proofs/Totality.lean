import Harvest.Proofs.Override
import Harvest.Proofs.Pipeline
import Harvest.Proofs.Progress
import Harvest.Proofs.Quoting

/-
  Which expressions can be read under options that were validated.

  Reading cuts an expression at the filter separator, takes the field apart and scans the invocations. All of that ends:
  cutting does under any separator (`cuts_split`), and scanning does because an argument separator is not empty
  (`scans_cells`; with an empty one it would go on for ever, `not_scans_empty`). The groups of the field are there, because
  the selector pattern has two. What validation does not see to is that each group of the filter separator takes part in
  each match: where one does not, the piece that it leaves is missing (`Dialect.Gapped`), and reading fails.
    1. `Options.ask_outcome` — under valid options an expression is read, unless it is gapped.
    2. `Options.ask_gapped` — options that are valid, and an expression that is gapped under them.
-/
namespace Harvest
open Text Regex

/-! ## Scanning -/

namespace Invocation

/-- How the cells of a text are scanned from a point on, as long as something is left: inside a quotation that `quote`
closes, `cell` being the cell under way, read backwards. A separator moves the point by its length. -/
inductive Scans (sep : List Char) : Option Char → List Char → List Char → List (List Char) → Prop where
  | stop {quote cell} : Scans sep quote cell [] [cell.reverse]
  | close {q cell s cs} : Scans sep none cell s cs → Scans sep (some q) cell (q :: s) cs
  | quoted {q c cell s cs} : c ≠ q → Scans sep (some q) (c :: cell) s cs → Scans sep (some q) cell (c :: s) cs
  | opens {c cell s cs} : (isQuote c && allBlank cell) = true → Scans sep (some c) [] s cs →
      Scans sep none cell (c :: s) cs
  | cut {c cell s cs} : (isQuote c && allBlank cell) = false → startsWith sep (c :: s) = true →
      Scans sep none [] ((c :: s).drop sep.length) cs → Scans sep none cell (c :: s) (cell.reverse :: cs)
  | bare {c cell s cs} : (isQuote c && allBlank cell) = false → startsWith sep (c :: s) = false →
      Scans sep none (c :: cell) s cs → Scans sep none cell (c :: s) cs

variable {sep : List Char}

/-- Each step moves the point, by induction on what is left. -/
theorem scans_cellsFrom (hsep : sep ≠ []) (quote : Option Char) (cell s : List Char) :
    Scans sep quote cell s (cellsFrom sep quote 0 cell s) := by
  obtain ⟨d, sep', hd⟩ := List.exists_cons_of_ne_nil hsep
  induction hn : s.length using Nat.strong_induction_on generalizing quote cell s with
  | _ n ih =>
    cases s with
    | nil =>
      rw [cellsFrom]
      exact .stop
    | cons c s =>
      rw [List.length_cons] at hn
      cases quote with
      | some q =>
        rw [cellsFrom]
        split
        · next hc =>
          subst hc
          exact .close (ih s.length (by omega) _ _ s rfl)
        · next hc => exact .quoted hc (ih s.length (by omega) _ _ s rfl)
      | none =>
        rw [cellsFrom]
        split
        · next hopen => exact .opens hopen (ih s.length (by omega) _ _ s rfl)
        · next hopen =>
          have hclosed := eq_false_of_ne_true hopen
          split
          · next hstart =>
            refine .cut hclosed hstart ?_
            obtain ⟨r, hr⟩ := startsWith_iff_prefix.mp hstart
            rw [hd, List.cons_append] at hr
            obtain ⟨-, rfl⟩ := List.cons.inj hr
            rw [hd, List.length_cons, List.drop_succ_cons, List.drop_left, Nat.add_sub_cancel, cellsFrom_skip, ← hd]
            rw [List.length_append] at hn
            exact ih r.length (by omega) _ _ r rfl
          · next hstart => exact .bare hclosed (eq_false_of_ne_true hstart) (ih s.length (by omega) _ _ s rfl)

/-- Scanning a text ends with its cells. -/
theorem scans_cells (hsep : sep ≠ []) (s : List Char) : Scans sep none [] s (cells sep s) :=
  scans_cellsFrom hsep none [] s

/-- An empty separator stands in front of everything and never moves the point. -/
theorem not_scans_empty {c : Char} (hc : isQuote c = false) (cell s : List Char) (cs : List (List Char)) :
    ¬Scans [] none cell (c :: s) cs := by
  intro h
  generalize hsep : ([] : List Char) = sep at h
  generalize hquote : (none : Option Char) = quote at h
  generalize ht : c :: s = t at h
  induction h with
  | stop => cases ht
  | close => cases hquote
  | quoted => cases hquote
  | opens hopen =>
    cases ht
    simp [hc] at hopen
  | cut _ _ _ ih =>
    cases hsep
    exact ih rfl ht
  | bare _ hstart =>
    cases hsep
    cases hstart

end Invocation

/-! ## Reading -/

theorem exists_invocations (separator : String) {ps : List (Option (List Char))} (h : none ∉ ps) :
    ∃ is, invocations separator ps = .ok is := by
  induction ps with
  | nil => exact ⟨[], rfl⟩
  | cons p ps ih =>
    rw [List.mem_cons, not_or] at h
    obtain ⟨is, his⟩ := ih h.2
    cases p with
    | none => exact absurd rfl h.1
    | some s => exact ⟨_, by rw [invocations, his]; rfl⟩

theorem invocations_missing (separator : String) {ps : List (Option (List Char))} (h : none ∈ ps) :
    invocations separator ps = .error .missingPiece := by
  induction ps with
  | nil => cases h
  | cons p ps ih =>
    cases p with
    | none => rfl
    | some s =>
      have hrest : none ∈ ps := by simpa using h
      rw [invocations, ih hrest]
      rfl

namespace Dialect
variable {d : Dialect} {e : String}

/-- Whether reading misses a piece: the field of an expression matches, and a group of the filter separator takes no
part in one of the matches at which the expression is cut. -/
def Gapped (d : Dialect) (e : String) : Prop :=
  d.Fits e ∧ ∃ q, d.filterSeparator.CutsAt true (Place.front (trim e.toList)) q ∧
    ∃ i, 1 ≤ i ∧ i ≤ d.filterSeparator.groups ∧ q.group? i = none

theorem gapped_iff {f : List Char} {ps : List (Option (List Char))}
    (hsplit : d.filterSeparator.split (trim e.toList) = some f :: ps) : d.Gapped e ↔ d.Fits e ∧ none ∈ ps := by
  have hnone := (Expression.cuts_split d.filterSeparator (trim e.toList)).none_mem_iff
  rw [Gapped, ← hnone, hsplit]
  simp

theorem not_gapped_of_no_groups (h : d.filterSeparator.groups = 0) (e : String) : ¬d.Gapped e := by
  rintro ⟨-, q, -, i, hpos, hi, -⟩
  omega

/-- Whether reading an expression ends: cutting it at the filter separator comes to its pieces, and scanning each piece
behind the field to its cells. -/
def Ends (d : Dialect) (e : String) : Prop :=
  let pieces := d.filterSeparator.split (trim e.toList)
  let separator := d.argumentSeparator.toList
  d.filterSeparator.Cuts true (Place.front (trim e.toList)) pieces ∧
    ∀ s, some s ∈ pieces.tail → Invocation.Scans separator none [] s (Invocation.cells separator s)

theorem ends (h : d.argumentSeparator.toList ≠ []) (e : String) : d.Ends e :=
  ⟨Expression.cuts_split _ _, fun s _ => Invocation.scans_cells h s⟩

/-- Where the field fits a pattern with two groups, what is read hangs on the invocations alone. -/
theorem read_of_fits (hgroups : 2 ≤ d.selectorPattern.groups) {f : List Char} {ps : List (Option (List Char))}
    (hsplit : d.filterSeparator.split (trim e.toList) = some f :: ps) (hfits : d.Fits e) :
    ∃ g : List Invocation → Query × List Event, d.read e = (invocations d.argumentSeparator ps).map g := by
  obtain ⟨place, hmatch⟩ := Option.isSome_iff_exists.mp ((fits_of_split hsplit).mp hfits)
  obtain ⟨n, hn⟩ := Nat.exists_eq_add_of_le' hgroups
  have htexts : ∃ selector part others, d.selectorPattern.groupTexts place = selector :: part :: others := by
    rw [Expression.groupTexts, hn, List.range_succ_eq_map, List.range_succ_eq_map]
    exact ⟨_, _, _, rfl⟩
  obtain ⟨selector, part, others, htexts⟩ := htexts
  rw [read]
  simp only [hsplit, hmatch, htexts, assemble]
  exact ⟨_, rfl⟩

theorem exists_read (hgroups : 2 ≤ d.selectorPattern.groups) (h : ¬d.Gapped e) : ∃ a, d.read e = .ok a := by
  obtain ⟨f, ps, hsplit⟩ := (Expression.cuts_split d.filterSeparator (trim e.toList)).exists_first
  rw [gapped_iff hsplit, not_and] at h
  by_cases hfits : d.Fits e
  · obtain ⟨g, hread⟩ := read_of_fits hgroups hsplit hfits
    obtain ⟨is, his⟩ := exists_invocations d.argumentSeparator (h hfits)
    rw [hread, his]
    exact ⟨g is, rfl⟩
  · -- the field is a selector as a whole, and the other pieces are left alone
    rw [fits_of_split hsplit, Option.not_isSome_iff_eq_none] at hfits
    rw [read]
    simp only [hsplit, hfits]
    exact ⟨_, rfl⟩

theorem read_of_gapped (hgroups : 2 ≤ d.selectorPattern.groups) (h : d.Gapped e) : d.read e = .error .missingPiece := by
  obtain ⟨f, ps, hsplit⟩ := (Expression.cuts_split d.filterSeparator (trim e.toList)).exists_first
  obtain ⟨hfits, hmissing⟩ := (gapped_iff hsplit).mp h
  obtain ⟨g, hread⟩ := read_of_fits hgroups hsplit hfits
  rw [hread, invocations_missing d.argumentSeparator hmissing]
  rfl

end Dialect

/-! ## Options -/

namespace Options
variable {o : Options} {given : Given} {above : Settings}

/-- What is built on what can be given comes out of validation. -/
theorem valid_of_build (hgiven : given.Valid) (h : build given above = .ok o) : o.Valid := by
  rw [hgiven.build_eq] at h
  exact ⟨_, h⟩

/-- Under valid options, reading an expression ends and comes to a query, whatever was asked for before, unless a group
of the filter separator takes no part in a match. Then a piece is missing, and so it is each time the expression is asked
for. -/
theorem ask_outcome (hgiven : given.Valid) (h : build given above = .ok o) (earlier : List String) (e : String) :
    let answer := (o.dialect.ask (o.dialect.askAll earlier) e).1
    o.dialect.Ends e ∧ (¬o.dialect.Gapped e → ∃ a, answer = .ok a) ∧
      (o.dialect.Gapped e → answer = .error .missingPiece) ∧
      (o.dialect.filterSeparator.groups = 0 → ¬o.dialect.Gapped e) := by
  intro answer
  obtain ⟨es, hes⟩ := valid_of_build hgiven h
  have hgroups := two_le_groups (accepts_of_validate hes .selectorPattern)
  have hseparator : o.dialect.argumentSeparator.toList ≠ [] := by
    simpa using ne_empty_of_check (accepts_of_validate hes .argumentSeparator)
  have hanswer : answer.map (·.query) = (o.dialect.read e).map (·.1) := (o.dialect.askAll_sound earlier).ask_query e
  refine ⟨Dialect.ends hseparator e, ?_, ?_, fun hzero => Dialect.not_gapped_of_no_groups hzero e⟩
  · intro hgap
    obtain ⟨read, hread⟩ := Dialect.exists_read hgroups hgap
    rw [hread] at hanswer
    obtain ⟨a, ha, -⟩ := map_eq_ok.mp hanswer
    exact ⟨a, ha⟩
  · intro hgap
    rw [Dialect.read_of_gapped hgroups hgap] at hanswer
    exact map_eq_error.mp hanswer

/-- A separator of filters that is one of two signs, one of them in a group. -/
def eitherSign : Regex.Expression := ⟨"(;)|\\|", .alt (.group 1 (.char ';' false)) (.char '|' false), 1⟩

theorem read_eitherSign : Regex.Expression.read eitherSign.source = .ok eitherSign := by decide +kernel

/-- The setting of that separator. -/
def eitherGiven : Given := .table [("filter_separator", .plain (.text eitherSign.source))]

/-- The standard options with that separator. -/
def eitherOptions : Options := { standard with dialect := { standardDialect with filterSeparator := eitherSign } }

theorem valid_eitherGiven : eitherGiven.Valid := trivial

theorem build_eitherGiven : build eitherGiven [] = .ok eitherOptions := by
  have hsettings : eitherGiven.settings = [("filter_separator", .plain (.text eitherSign.source))] := rfl
  have hcheck : checkPattern standardDialect.filterSeparator
      (some ("filter_separator", .plain (.text eitherSign.source))) = .ok (.ok eitherSign) := by
    simp only [checkPattern, read_eitherSign]
  rw [valid_eitherGiven.build_eq, hsettings, update]
  refine validate_only (c := .filterSeparator) hcheck fun c hc => ⟨?_, ?_⟩
  · cases c <;> simp [Choice.pick?, Options.pick?, Choice.name, Choice.oldName, List.lookup_cons] at hc ⊢
  · cases c <;> simp [Choice.Same, eitherOptions, standard] at hc ⊢

/-- The sign without a group leaves a gap. -/
theorem gapped_either : eitherOptions.dialect.Gapped "p | trim" := by
  have hsplit : eitherOptions.dialect.filterSeparator.split (trim "p | trim".toList)
      = some "p ".toList :: [none, some " trim".toList] := by decide +kernel
  rw [Dialect.gapped_iff hsplit, Dialect.fits_of_split hsplit]
  decide +kernel

theorem not_gapped_either : ¬eitherOptions.dialect.Gapped "p ; trim" := by
  have hsplit : eitherOptions.dialect.filterSeparator.split (trim "p ; trim".toList)
      = some "p ".toList :: [some ";".toList, some " trim".toList] := by decide +kernel
  rw [Dialect.gapped_iff hsplit]
  rintro ⟨-, hnone⟩
  simp at hnone

theorem ask_outcome_sample :
    eitherGiven.Valid ∧ build eitherGiven [] = .ok eitherOptions ∧ eitherOptions.dialect.Ends "p ; trim" ∧
      ∃ a, (eitherOptions.dialect.ask (eitherOptions.dialect.askAll ["p | trim"]) "p ; trim").1 = .ok a := by
  obtain ⟨hends, hread, -, -⟩ := ask_outcome valid_eitherGiven build_eitherGiven ["p | trim"] "p ; trim"
  exact ⟨valid_eitherGiven, build_eitherGiven, hends, hread not_gapped_either⟩

/-- Options that are valid, and an expression that cannot be read under them. -/
theorem ask_gapped : ∃ o, build eitherGiven [] = .ok o ∧ (o.dialect.ask [] "p | trim").1 = .error .missingPiece := by
  refine ⟨eitherOptions, build_eitherGiven, ?_⟩
  have hgroups : 2 ≤ eitherOptions.dialect.selectorPattern.groups := by decide +kernel
  have hanswer := (Memo.sound_nil eitherOptions.dialect).ask_query "p | trim"
  rw [Dialect.read_of_gapped hgroups gapped_either] at hanswer
  exact map_eq_error.mp hanswer

end Options
end Harvest
