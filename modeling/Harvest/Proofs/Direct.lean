import Harvest.Proofs.Precedence

/-
  Layers, and validation alone.

  What a caller sets can be validated as it stands, or as the one layer on top of what holds by default. Both come to
  the same, though they go different ways: validation looks a field up under its own name and then in its section, and
  takes the standard value where it finds nothing; the layer is written in sections first, and put on top of the
  standard values. Either way a field has what the caller gives for it, or else its standard value (`validate_eq_ok`,
  `highest_single`).
    1. `load_direct` — so without files and variables, loading is validation.
-/
namespace Harvest.Config

/-- Where no variable gives a field, the environment gives nothing. -/
theorem ofVariables_of_none {vars : Variables} (h : ∀ f, valueOf? vars f = none) : ofVariables vars = .ok [] := by
  have hentry : Field.all.map (variableEntry vars) = Field.all.map fun _ => .ok [] := by
    apply List.map_congr_left
    intro f _
    rw [variableEntry, h f]
  rw [ofVariables, hentry]
  rfl

/-- The names of variables are compared in small letters. -/
theorem valueOf?_of_ne {vars : Variables} {f : Field}
    (h : ∀ e ∈ vars, String.ofList (Text.lower e.1.toList) ≠ variableStem ++ f.flat) : valueOf? vars f = none := by
  have hnone :
      vars.reverse.find? (fun e => String.ofList (Text.lower e.1.toList) == variableStem ++ f.flat) = none := by
    rw [List.find?_eq_none]
    intro e he
    simpa using h e (List.mem_reverse.mp he)
  rw [valueOf?, hnone]
  rfl

/-- Above empty layers, the caller gives a field, or nobody does. -/
theorem highest_single (cli : Entries) (f : Field) : highest [[], [], cli] f = (given cli f).getD f.standard := by
  have hnil : given [] f = none := by cases f <;> rfl
  simp only [highest, List.foldl_cons, List.foldl_nil, hnil, Option.getD_none]

/-- Without a file of the configuration, a file of variables and variables for fields, what a caller sets loads as a
configuration exactly when it is valid by itself, and then it is the same configuration: whatever the values are, also
if sections are missing, incomplete or no mappings, if a field is given both on its own and in its section, or if there
are other keys. -/
theorem load_direct [Yaml.Library] (s : Sources) (hconfig : s.config? = none) (hdotenv : s.dotenv? = none)
    (hvars : ∀ e ∈ s.environment, ∀ f : Field, String.ofList (Text.lower e.1.toList) ≠ variableStem ++ f.flat)
    (hcli : (Value.map s.overrides).Formed) (c : Config) :
    load s = .ok c ↔ ofValue (.map s.overrides) = .ok c := by
  have henviron : s.environ = .ok s.environment := by
    rw [Sources.environ, hdotenv]
    rfl
  have hfile : s.fileLayer = .ok [] := by
    rw [Sources.fileLayer, hconfig]
    rfl
  have hlayer : ofVariables s.environment = .ok [] :=
    ofVariables_of_none fun f => valueOf?_of_ne fun e he => hvars e he f
  have hempty : (Value.map []).Formed := .map List.Pairwise.nil (by simp)
  have hformed : ∀ l ∈ [[], [], s.overrides], (Value.map l).Formed := by
    intro l hl
    simp only [List.mem_cons, List.not_mem_nil, or_false] at hl
    rcases hl with rfl | rfl | rfl
    · exact hempty
    · exact hempty
    · exact hcli
  calc load s = .ok c
      ↔ validate (stack [[], [], s.overrides]) = .ok c := by rw [load_eq henviron hfile hlayer, mapError_eq_ok]
    _ ↔ ∀ f : Field, f.Holds (highest [[], [], s.overrides] f) c := validate_stack_eq_ok hformed
    _ ↔ ∀ f : Field, f.Holds ((given s.overrides f).getD f.standard) c := by simp only [highest_single]
    _ ↔ ofValue (.map s.overrides) = .ok c := validate_eq_ok.symm

/-- A parser on its own and in its section, a section that is no mapping, and a key that is no field. -/
def mixedSources : Sources where
  environment := [("PATH", "/bin")]
  overrides := [(.text "parser", .text "html.parser"),
    (.text "extraction", table [("parser", .text "lxml"), ("builtin_filters", .text "no")]),
    (.text "logging", .int 5), (.text "color", .bool true)]

theorem load_direct_sample :
    (∀ e ∈ mixedSources.environment, ∀ f : Field,
        String.ofList (Text.lower e.1.toList) ≠ variableStem ++ f.flat)
      ∧ (Value.map mixedSources.overrides).Formed
      ∧ load mixedSources = .ok ⟨"xselect", .dev, .info, .console, "html.parser", false, some 2⟩ := by
  have hvars : ∀ e ∈ mixedSources.environment, ∀ f : Field,
      String.ofList (Text.lower e.1.toList) ≠ variableStem ++ f.flat := by
    intro e he f
    obtain rfl := List.mem_singleton.mp he
    cases f <;> decide +kernel
  have hextraction : (table [("parser", .text "lxml"), ("builtin_filters", .text "no")]).Formed :=
    .record (by decide) (by simp [Value.Formed.text])
  have hcli : (Value.map mixedSources.overrides).Formed := by
    have hrecord : Value.map mixedSources.overrides = .ofRecord [("parser", .text "html.parser"),
      ("extraction", table [("parser", .text "lxml"), ("builtin_filters", .text "no")]), ("logging", .int 5),
      ("color", .bool true)] := rfl
    rw [hrecord]
    exact .record (by decide) (by simp [Value.Formed.text, Value.Formed.int, Value.Formed.bool, hextraction])
  refine ⟨hvars, hcli, ?_⟩
  rw [load_direct mixedSources rfl rfl hvars hcli]
  rfl

end Harvest.Config
