import Harvest.Config.Load
import Harvest.Proofs.Layer
import Harvest.Proofs.Lookup

/-
  The layer of the environment.

  A variable of the process counts before one of the file of variables (`lookup_environ`). Where the names that count are
  written in capitals, the layer gives a field just where its variable is set, as the value that is read from it
  (`ofVariables_eq`, `given_record`).
-/
namespace Harvest.Config

/-! ## The file of variables -/

/-- A variable is added where the process lacks it. -/
theorem lookup_set {e e' : Environment} {b : Dotenv.Binding} (h : Dotenv.set e b = .ok e') (n : String) :
    e'.lookup n = (e.lookup n).or (if n = b.1 then b.2 else none) := by
  obtain ⟨m, v⟩ := b
  cases v with
  | none =>
    cases h
    simp
  | some v =>
    have hany : e.any (·.1 == m) = true ↔ m ∈ e.map (·.1) := by simp
    simp only [Dotenv.set] at h
    by_cases hm : m ∈ e.map (·.1)
    · rw [if_pos (hany.mpr hm)] at h
      cases h
      by_cases hn : n = m
      · subst hn
        obtain ⟨w, hw⟩ := Option.isSome_iff_exists.mp (lookup_isSome.mpr hm)
        rw [hw, Option.some_or]
      · rw [if_neg hn, Option.or_none]
    · rw [if_neg (fun h => hm (hany.mp h))] at h
      split at h
      · cases h
      · split at h
        · cases h
        · cases h
          exact lookup_concat e m v n

theorem names_set {e e' : Environment} {b : Dotenv.Binding} (h : Dotenv.set e b = .ok e')
    (he : (e.map (·.1)).Nodup) : (e'.map (·.1)).Nodup := by
  obtain ⟨m, v⟩ := b
  cases v with
  | none =>
    cases h
    exact he
  | some v =>
    simp only [Dotenv.set] at h
    split at h
    · cases h
      exact he
    · next hm =>
      split at h
      · cases h
      · split at h
        · cases h
        · cases h
          exact nodup_concat he (by simpa using hm) v

/-- Variables under different names are added one after the other, by induction on their number. -/
theorem lookup_foldlM_set {bs : List Dotenv.Binding} (hbs : (bs.map (·.1)).Nodup) {e e' : Environment}
    (h : bs.foldlM Dotenv.set e = .ok e') (n : String) : e'.lookup n = (e.lookup n).or (bs.lookup n).join := by
  induction bs generalizing e with
  | nil =>
    cases h
    simp
  | cons b bs ih =>
    obtain ⟨m, v⟩ := b
    rw [List.foldlM_cons] at h
    obtain ⟨e₁, hset, hrest⟩ := bind_eq_ok.mp h
    rw [List.map_cons, List.nodup_cons] at hbs
    rw [ih hbs.2 hrest, lookup_set hset]
    by_cases hn : n = m
    · rw [if_pos hn, hn, lookup_eq_none.mpr hbs.1, List.lookup_cons_self, Option.join_none, Option.or_none]
      rfl
    · rw [if_neg hn, lookup_cons_of_ne hn, Option.or_none]

theorem names_foldlM_set {bs : List Dotenv.Binding} {e e' : Environment} (h : bs.foldlM Dotenv.set e = .ok e')
    (he : (e.map (·.1)).Nodup) : (e'.map (·.1)).Nodup := by
  induction bs generalizing e with
  | nil =>
    cases h
    exact he
  | cons b bs ih =>
    rw [List.foldlM_cons] at h
    obtain ⟨e₁, hset, hrest⟩ := bind_eq_ok.mp h
    exact ih hrest (names_set hset he)

theorem names_bind {bs : List Dotenv.Binding} (hbs : (bs.map (·.1)).Nodup) (b : Dotenv.Binding) :
    ((Dotenv.bind bs b).map (·.1)).Nodup := by
  unfold Dotenv.bind
  split
  · rw [List.map_map]
    exact hbs
  · next hb => exact nodup_concat hbs (by simpa using hb) b.2

/-- A file binds each name once, however often it stands there. -/
theorem names_expand (process : Environment) (bs : List Dotenv.Binding) :
    ((Dotenv.expand process bs).map (·.1)).Nodup := by
  have hfold : ∀ (bs so : List Dotenv.Binding), (so.map (·.1)).Nodup →
      ((bs.foldl (fun so b => Dotenv.bind so (b.1, b.2.map fun t =>
        String.ofList (Dotenv.expandFrom (Dotenv.lookup process so) t.length t.toList))) so).map (·.1)).Nodup := by
    intro bs
    induction bs with
    | nil => exact fun so h => h
    | cons b bs ih => exact fun so h => ih _ (names_bind h _)
  exact hfold bs [] List.nodup_nil

namespace Sources
variable (s : Sources)

/-- The variables of the process with those that the file adds. -/
def environ : Except Fault Environment :=
  match s.dotenv? with
  | none => pure s.environment
  | some p => withDotenv s.files s.environment p

/-- What the file of variables binds, where there is one. -/
def bindings : List Dotenv.Binding :=
  match s.dotenv?.map s.files.readText with
  | some (.ok text) => Dotenv.expand s.environment (Dotenv.bindings text)
  | _ => []

/-- A variable: that of the process, or else that of the file. -/
def lookup? (n : String) : Option String := (s.environment.lookup n).or (s.bindings.lookup n).join

end Sources

variable {s : Sources} {vars : Environment}

/-- The file of variables adds what it binds. -/
theorem environ_eq (h : s.environ = .ok vars) : s.bindings.foldlM Dotenv.set s.environment = .ok vars := by
  unfold Sources.environ at h
  unfold Sources.bindings
  cases hp : s.dotenv? with
  | none =>
    rw [hp] at h
    cases h
    rfl
  | some p =>
    rw [hp] at h
    obtain ⟨-, -, hrest⟩ := bind_eq_ok.mp h
    rw [Option.map_some]
    split at hrest
    · next hdir =>
      have hread : s.files.readText p = .error (.isDirectory p.text) := by rw [Files.readText, hdir]
      rw [hread]
      cases hrest
      rfl
    · obtain ⟨text, htext, hload⟩ := bind_eq_ok.mp hrest
      rw [mapError_eq_ok.mp htext]
      exact mapError_eq_ok.mp hload

/-- Of one variable in both, that of the process counts. -/
theorem lookup_environ (h : s.environ = .ok vars) (n : String) : vars.lookup n = s.lookup? n := by
  have hbs : (s.bindings.map (·.1)).Nodup := by
    unfold Sources.bindings
    split
    · exact names_expand _ _
    · exact List.nodup_nil
  exact lookup_foldlM_set hbs (environ_eq h) n

theorem names_environ (h : s.environ = .ok vars) (hs : (s.environment.map (·.1)).Nodup) :
    (vars.map (·.1)).Nodup := names_foldlM_set (environ_eq h) hs

/-! ## The fields -/

/-- The name of the variable of a field. -/
def Field.variableName (f : Field) : String := String.ofList ("XSELECT_".toList ++ f.flat.toList.map Char.toUpper)

/-- Whether each variable that counts for a field is written in capitals. -/
def Capital (vars : Environment) : Prop :=
  ∀ e ∈ vars, ∀ f : Field, String.ofList (Text.lower e.1.toList) = variableStem ++ f.flat → e.1 = f.variableName

theorem lower_variableName (f : Field) : String.ofList (Text.lower f.variableName.toList) = variableStem ++ f.flat := by
  cases f <;> decide +kernel

/-- Then a field has the variable of its name in capitals. -/
theorem valueOf?_eq (hvars : Capital vars) (hnames : (vars.map (·.1)).Nodup) (f : Field) :
    valueOf? vars f = vars.lookup f.variableName := by
  -- names are compared in small letters, which for names in capitals is to compare them
  let counts (e : String × String) : Bool := String.ofList (Text.lower e.1.toList) == variableStem ++ f.flat
  have hcounts : ∀ e ∈ vars, counts e = true ↔ e.1 = f.variableName := by
    intro e he
    constructor
    · intro h
      exact hvars e he f (beq_iff_eq.mp h)
    · intro h
      obtain ⟨n, v⟩ := e
      cases h
      exact beq_iff_eq.mpr (lower_variableName f)
  have hvalue : valueOf? vars f = (vars.reverse.find? counts).map (·.2) := rfl
  rw [hvalue]
  cases hfind : vars.reverse.find? counts with
  | none =>
    have hnone : f.variableName ∉ vars.map (·.1) := by
      intro hmem
      obtain ⟨e, he, hname⟩ := List.mem_map.mp hmem
      have hno := List.find?_eq_none.mp hfind e (List.mem_reverse.mpr he)
      exact hno ((hcounts e he).mpr hname)
    rw [lookup_eq_none.mpr hnone, Option.map_none]
  | some e =>
    have he : e ∈ vars := List.mem_reverse.mp (List.mem_of_find?_eq_some hfind)
    have hname := (hcounts e he).mp (List.find?_some hfind)
    obtain ⟨n, v⟩ := e
    obtain rfl : n = f.variableName := hname
    rw [lookup_of_mem hnames he, Option.map_some]

/-! ## The layer -/

/-- The fields of some that are given, with their values. -/
def record (env : Field → Option Value) (fs : List Field) : Value.Record := fs.filterMap fun f => (env f).map (f.flat, ·)

variable {env : Field → Option Value}

theorem names_record (env : Field → Option Value) (fs : List Field) :
    ((record env fs).map (·.1)).Sublist (fs.map Field.flat) := by
  induction fs with
  | nil => exact List.Sublist.slnil
  | cons f fs ih =>
    cases hf : env f with
    | none =>
      have hcons : record env (f :: fs) = record env fs := by simp [record, hf]
      rw [hcons]
      exact ih.cons f.flat
    | some v =>
      have hcons : record env (f :: fs) = (f.flat, v) :: record env fs := by simp [record, hf]
      rw [hcons]
      exact ih.cons_cons f.flat

theorem mem_record {e : String × Value} {fs : List Field} :
    e ∈ record env fs ↔ ∃ f ∈ fs, ∃ v, env f = some v ∧ (f.flat, v) = e := by
  simp [record, List.mem_filterMap, Option.map_eq_some_iff]

theorem nodup_record (env : Field → Option Value) : ((record env Field.all).map (·.1)).Nodup :=
  (names_record env Field.all).nodup (by decide)

theorem lookup_record (env : Field → Option Value) (f : Field) : (record env Field.all).lookup f.flat = env f := by
  cases hf : env f with
  | none =>
    rw [lookup_eq_none]
    intro hmem
    obtain ⟨e, he, hname⟩ := List.mem_map.mp hmem
    obtain ⟨g, -, w, hw, rfl⟩ := mem_record.mp he
    by_cases hgf : g = f
    · rw [hgf, hf] at hw
      cases hw
    · exact Field.flat_ne hgf hname
  | some v => exact lookup_of_mem (nodup_record env) (mem_record.mpr ⟨f, f.mem_all, v, hf, rfl⟩)

/-- No section is among the fields. -/
theorem lookup_record_section (env : Field → Option Value) {sec : String} (hsec : sec ∈ sections) :
    (record env Field.all).lookup sec = none := by
  rw [lookup_eq_none]
  intro hmem
  obtain ⟨e, he, hname⟩ := List.mem_map.mp hmem
  obtain ⟨g, -, w, -, rfl⟩ := mem_record.mp he
  exact g.flat_ne_section hsec hname

/-- The layer of a record gives each field as the record does. -/
theorem given_record (env : Field → Option Value) (f : Field) :
    given (Value.entriesOf (record env Field.all)) f = env f := by
  have hfind : Value.find? (.text f.flat) (Value.entriesOf (record env Field.all)) = env f := by
    rw [Value.find?_entriesOf, lookup_record]
  rw [given_eq, hfind]
  cases hplace : f.place? with
  | none =>
    rw [slot, hplace]
    simp only [hfind]
    cases env f <;> rfl
  | some p =>
    obtain ⟨sec, name⟩ := p
    have hblock : block? (Value.entriesOf (record env Field.all)) sec = none := by
      rw [block?, Value.find?_entriesOf, lookup_record_section env (Field.mem_sections hplace)]
    rw [slot_eq hplace, hblock]
    cases env f <;> rfl

theorem formed_readVariable {f : Field} {text : String} {v : Value} (h : readVariable f text = .ok v) : v.Formed := by
  cases f with
  | appName =>
    cases h
    exact .text text
  | parser =>
    cases h
    exact .text text
  | deployment =>
    obtain ⟨d, -, rfl⟩ := map_eq_ok.mp h
    exact .text text
  | logLevel =>
    obtain ⟨l, -, rfl⟩ := map_eq_ok.mp h
    exact .text text
  | logFormat =>
    obtain ⟨l, -, rfl⟩ := map_eq_ok.mp h
    exact .text text
  | builtinFilters =>
    obtain ⟨b, -, rfl⟩ := map_eq_ok.mp h
    exact .bool b
  | indent =>
    obtain ⟨i, -, rfl⟩ := map_eq_ok.mp h
    exact .int i

/-- Whether each field is what its variable reads as, and none where the variable is not set. -/
def Reads (get? : String → Option String) (env : Field → Option Value) : Prop :=
  ∀ f : Field, (get? f.variableName).mapM (readVariable f) = .ok (env f)

/-- The environment is a layer of its own, where each of its variables can be read. -/
theorem ofVariables_eq (hvars : Capital vars) (hnames : (vars.map (·.1)).Nodup) (henv : Reads (fun n => vars.lookup n) env) :
    ofVariables vars = .ok (Value.entriesOf (record env Field.all)) := by
  have hentry : ∀ f : Field, variableEntry vars f
      = .ok (((env f).map fun v => ((.text f.flat, v) : Value × Value)).toList) := by
    intro f
    have hf : (vars.lookup f.variableName).mapM (readVariable f) = .ok (env f) := henv f
    rw [variableEntry, valueOf?_eq hvars hnames]
    cases hl : vars.lookup f.variableName with
    | none =>
      rw [hl] at hf
      have hnone : none = env f := Except.ok.inj hf
      rw [← hnone]
      rfl
    | some text =>
      rw [hl] at hf
      obtain ⟨v, hv, hsome⟩ := bind_eq_ok.mp hf
      have hvalue : some v = env f := Except.ok.inj hsome
      simp only [hv, ← hvalue]
      rfl
  have hgather : ∀ fs : List Field, gather (fs.map (variableEntry vars)) = .ok (Value.entriesOf (record env fs)) := by
    intro fs
    induction fs with
    | nil => rfl
    | cons f fs ih =>
      simp only [List.map_cons, gather, hentry, ih]
      cases hf : env f <;> simp [record, Value.entriesOf, hf]
  exact hgather Field.all

theorem formed_record (henv : Reads (fun n => vars.lookup n) env) :
    (Value.map (Value.entriesOf (record env Field.all))).Formed := by
  refine Value.Formed.record (nodup_record env) ?_
  intro e he
  obtain ⟨f, -, v, hv, rfl⟩ := mem_record.mp he
  have hf : (vars.lookup f.variableName).mapM (readVariable f) = .ok (env f) := henv f
  rw [hv] at hf
  cases hl : vars.lookup f.variableName with
  | none =>
    rw [hl] at hf
    cases hf
  | some text =>
    rw [hl] at hf
    obtain ⟨w, hw, hsome⟩ := bind_eq_ok.mp hf
    cases hsome
    exact formed_readVariable hw

end Harvest.Config
