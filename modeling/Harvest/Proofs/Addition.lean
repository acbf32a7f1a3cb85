import Harvest.Proofs.Absence
import Harvest.Proofs.Alignment
import Harvest.Proofs.Column

/-
  A field more.

  A field added to a mapping, under a name that is new and at any position, disturbs no other field. Without it
  (`Value.dropField`) the result is what it was before:
    1. A record is the same (`fields_added`).
    2. In a list below a root the same matches make records, but a match may now have a record where it had none; so
       what is empty without the field is left out once more (`item_added_rooted`).
    3. In a list without a root the new column may be the longest; then records follow that are empty without the field,
       behind those that were there before (`item_added`, `Columns.zip_dropName`).
  This is so as long as the field itself comes to something: where its schema fails, all fails with the fault of it
  (`AgreeUnless`). That is the one thing an added field can do to the others, and it can do it, since a selector that is
  not supported is a fault and not absence (`Extractor.addition_fails`).
-/
namespace Harvest
open Markup

/-! ## A field less -/

section
variable {β : Type} {j k : String} {es : List (String × β)}

/-- What stands under other names. -/
def dropName (k : String) (es : List (String × β)) : List (String × β) := es.filter (·.1 != k)

theorem dropName_cons_self (k : String) (v : β) (es : List (String × β)) :
    dropName k ((k, v) :: es) = dropName k es := by
  simp [dropName]

theorem dropName_cons_of_ne (h : j ≠ k) (v : β) (es : List (String × β)) :
    dropName k ((j, v) :: es) = (j, v) :: dropName k es := by
  simp [dropName, h]

theorem dropName_of_not_mem (h : k ∉ es.map (·.1)) : dropName k es = es := by
  rw [dropName, List.filter_eq_self]
  intro e he
  have hne : e.1 ≠ k := fun hk => h (List.mem_map.mpr ⟨e, he, hk⟩)
  simpa using hne

end

section
variable {j k : String}

theorem dropName_withField_self (k : String) (v : Value) (r : Value.Record) :
    dropName k (withField k v r) = dropName k r := by
  rw [withField]
  split
  · rfl
  · exact dropName_cons_self k v r

theorem dropName_withField (h : j ≠ k) (v : Value) (r : Value.Record) :
    dropName k (withField j v r) = withField j v (dropName k r) := by
  rw [withField, withField]
  split
  · rfl
  · exact dropName_cons_of_ne h v r

end

namespace Value
variable {j k : String}

/-- A value without the entry under a text, if it is a mapping. -/
def dropField (k : String) : Value → Value
  | .map es => .map (without (.text k) es)
  | v => v

theorem dropField_ofRecord (k : String) (r : Record) : dropField k (ofRecord r) = ofRecord (dropName k r) := by
  simp only [dropField, ofRecord, without, dropName, List.filter_map]
  rfl

theorem dropName_putField_self (k : String) (v : Value) (r : Record) :
    dropName k (putField k v r) = dropName k r := by
  induction r with
  | nil => exact dropName_cons_self k v []
  | cons f r ih =>
    obtain ⟨i, w⟩ := f
    by_cases hi : i = k
    · subst hi
      rw [putField, if_pos (beq_self_eq_true i), dropName_cons_self, dropName_cons_self]
    · rw [putField, if_neg (by simpa using hi), dropName_cons_of_ne hi, dropName_cons_of_ne hi, ih]

theorem dropName_putField (h : j ≠ k) (v : Value) (r : Record) :
    dropName k (putField j v r) = putField j v (dropName k r) := by
  induction r with
  | nil => exact dropName_cons_of_ne h v []
  | cons f r ih =>
    obtain ⟨i, w⟩ := f
    by_cases hi : i = k
    · -- the field that is left out is not the one that is put
      subst hi
      rw [putField, if_neg (by simpa using Ne.symm h), dropName_cons_self, dropName_cons_self, ih]
    · rw [putField, dropName_cons_of_ne hi, putField]
      split
      · exact dropName_cons_of_ne hi v r
      · rw [dropName_cons_of_ne hi, ih]

/-- What is blank without a field was blank before, or has become empty. -/
theorem isBlank_dropField (k : String) (v : Value) :
    (dropField k v).isBlank = ((dropField k v).isEmptyMap || v.isBlank) := by
  match v with
  | .map [] => rfl
  | .map (e :: es) =>
    rw [dropField]
    cases without (.text k) (e :: es) <;> rfl
  | .null | .bool _ | .int _ | .real _ | .text _ | .list _ | .tuple _ | .schema _ | .other _ => rfl

theorem filter_dropField (k : String) (vs : List Value) :
    (vs.map (dropField k)).filter (!·.isBlank)
      = ((vs.filter (!·.isBlank)).map (dropField k)).filter (!·.isEmptyMap) := by
  rw [List.filter_map, List.filter_map, List.filter_filter]
  congr 2
  funext v
  simp [isBlank_dropField, Function.comp]

end Value

namespace Columns
variable {k : String} {i : Nat}

/-- Without a column, records are what they are without its field. -/
theorem foldl_dropName (k : String) (i : Nat) (cs : Columns) (r : Value.Record) :
    dropName k (cs.foldl (putAt i) r) = (dropName k cs).foldl (putAt i) (dropName k r) := by
  induction cs generalizing r with
  | nil => rfl
  | cons c cs ih =>
    obtain ⟨j, vs⟩ := c
    rw [List.foldl_cons, ih]
    by_cases hj : j = k
    · subst hj
      rw [dropName_cons_self, putAt_eq]
      cases cell? vs i with
      | none => rfl
      | some v => rw [Value.dropName_putField_self]
    · rw [dropName_cons_of_ne hj, List.foldl_cons, putAt_eq, putAt_eq]
      cases cell? vs i with
      | none => rfl
      | some v => rw [Value.dropName_putField hj]

theorem height_dropName_le (k : String) (cs : Columns) : height (dropName k cs) ≤ cs.height := by
  induction cs with
  | nil => exact Nat.le_refl _
  | cons c cs ih =>
    obtain ⟨j, vs⟩ := c
    by_cases hj : j = k
    · subst hj
      rw [dropName_cons_self, height]
      omega
    · rw [dropName_cons_of_ne hj, height, height]
      omega

/-- Without the field of a column, records are those without the column, and empty ones behind. -/
theorem zip_dropName (k : String) (cs : Columns) :
    cs.zip.map (dropName k)
      = zip (dropName k cs) ++ List.replicate (cs.height - height (dropName k cs)) [] := by
  have hrecord : ∀ i, dropName k (cs.recordAt i) = recordAt (dropName k cs) i := fun i => foldl_dropName k i cs []
  obtain ⟨n, hn⟩ := Nat.exists_eq_add_of_le (height_dropName_le k cs)
  rw [zip, zip, hn, Nat.add_sub_cancel_left, List.range_add, List.map_map, List.map_append]
  congr 1
  · exact List.map_congr_left fun i _ => hrecord i
  · rw [List.map_map, List.eq_replicate_iff]
    refine ⟨by simp, fun r hr => ?_⟩
    obtain ⟨i, -, rfl⟩ := List.mem_map.mp hr
    exact (hrecord _).trans (recordAt_of_height_le (Nat.le_add_right _ i))

end Columns

/-! ## A field more -/

namespace Schema
variable {front back : Entries} {k : String} {c : Value} {t : Compiled}

theorem compileFields_append (front back : Entries) :
    compileFields (front ++ back) = do return (← compileFields front) ++ (← compileFields back) := by
  induction front with
  | nil => exact (bind_pure _).symm
  | cons e es ih =>
    obtain ⟨l, v⟩ := e
    cases l with
    | text j =>
      rw [List.cons_append, compileFields, compileFields, ih]
      split
      · rfl
      · simp only [bind_assoc, pure_bind, List.cons_append]
    | _ => simp [compileFields]

theorem find?_insert {l : Value} (h : l ≠ rootKey) (v : Value) (front back : Entries) :
    Value.find? rootKey (front ++ (l, v) :: back) = Value.find? rootKey (front ++ back) := by
  induction front with
  | nil => exact Value.find?_cons_of_ne h v back
  | cons e es ih =>
    obtain ⟨j, w⟩ := e
    rw [List.cons_append, List.cons_append, Value.find?, Value.find?, ih]

/-- The fields of entries have names that stand among the entries. -/
theorem not_mem_compileFields {es : Entries} {fs : List (String × Compiled)} (hfs : compileFields es = .ok fs)
    (h : ∀ e ∈ es, e.1 ≠ .text k) : k ∉ fs.map (·.1) := by
  intro hk
  obtain ⟨f, hf, rfl⟩ := List.mem_map.mp hk
  obtain ⟨e, he, hef, -⟩ := exists_of_forall₂ (compileFields_eq_ok.mp hfs) hf
  have hsub : (Value.without rootKey es).Sublist es := List.filter_sublist
  exact h e (hsub.subset he) hef

/-- An entry more under a new name makes one field more, in the place where it stands. -/
theorem compile_added (hk : k ≠ "$root") (hnew : Value.find? (.text k) (front ++ back) = none)
    {m : Mapping Entries} (hF : compile (.map (front ++ back)) = .ok (.mapping m)) (hc : compile c = .ok t) :
    ∃ fs gs, m.fields = fs ++ gs ∧ k ∉ fs.map (·.1) ∧ k ∉ gs.map (·.1)
      ∧ compile (.map (front ++ (.text k, c) :: back))
        = .ok (.mapping (.mk m.root (fs ++ (k, t) :: gs) (front ++ (.text k, c) :: back))) := by
  obtain ⟨root, hs, hroot, hfields, ⟨⟩⟩ := compile_map.mp hF
  rw [compileFields_append] at hfields
  obtain ⟨fs, hfs, hrest⟩ := bind_eq_ok.mp hfields
  obtain ⟨gs, hgs, ⟨⟩⟩ := bind_eq_ok.mp hrest
  rw [Value.find?_eq_none] at hnew
  refine ⟨fs, gs, rfl, not_mem_compileFields hfs fun e he => hnew e (List.mem_append_left _ he),
    not_mem_compileFields hgs fun e he => hnew e (List.mem_append_right _ he), compile_map.mpr ⟨root, _, ?_, ?_, rfl⟩⟩
  · rw [rootOf, find?_insert (by simpa [rootKey] using hk), ← rootOf, hroot]
  · rw [compileFields_append, hfs, compileFields_cons hk, hc, hgs]
    rfl

end Schema

namespace Meaning
variable [Css.Library] {x : Engine} {expand : Expansion} {scope : Scope} {k : String} {t : Compiled}
variable {fs gs : List (String × Compiled)}

theorem not_mem_fields {r : Value.Record} (h : fields x expand scope fs = .ok r) (hk : k ∉ fs.map (·.1)) :
    k ∉ r.map (·.1) := fun hr => hk ((keys_fields h).subset hr)

/-- A field more leaves the others of a record as they are, unless it fails. -/
theorem fields_added (hfs : k ∉ fs.map (·.1)) (hgs : k ∉ gs.map (·.1)) :
    AgreeUnless (fun f => value x expand scope t = .error f) (fun r q => r = dropName k q)
      (fields x expand scope (fs ++ gs)) (fields x expand scope (fs ++ (k, t) :: gs)) := by
  -- the induction is on the fields in front, which both records take first
  induction fs with
  | nil =>
    rw [List.nil_append, List.nil_append, fields]
    refine .bind_own (fun f hf => hf) fun v _ => .bind_last fun r hr => ?_
    rw [dropName_withField_self, dropName_of_not_mem (not_mem_fields hr hgs)]
  | cons f fs ih =>
    obtain ⟨j, s⟩ := f
    rw [List.map_cons, List.mem_cons, not_or] at hfs
    rw [List.cons_append, List.cons_append, fields, fields]
    refine .bind_same fun v _ => (ih hfs.2).bind ?_
    rintro r q rfl
    exact .ok (dropName_withField (Ne.symm hfs.1) v q).symm

/-- A column more leaves the others as they are, unless it fails. -/
theorem columns_added (hfs : k ∉ fs.map (·.1)) (hgs : k ∉ gs.map (·.1)) :
    AgreeUnless (fun f => column x expand scope t = .error f) (fun cs ds => cs = dropName k ds)
      (columns x expand scope (fs ++ gs)) (columns x expand scope (fs ++ (k, t) :: gs)) := by
  induction fs with
  | nil =>
    rw [List.nil_append, List.nil_append, columns_cons]
    refine .bind_own (fun f hf => hf) fun vs _ => .bind_last fun cs hcs => ?_
    have hkeys : cs.map (·.1) = gs.map (·.1) := Paired.names (columns_eq_ok.mp hcs)
    rw [dropName_cons_self, dropName_of_not_mem (hkeys ▸ hgs)]
  | cons f fs ih =>
    obtain ⟨j, s⟩ := f
    rw [List.map_cons, List.mem_cons, not_or] at hfs
    rw [List.cons_append, List.cons_append, columns_cons, columns_cons]
    refine .bind_same fun vs _ => (ih hfs.2).bind ?_
    rintro cs ds rfl
    exact .ok (dropName_cons_of_ne (Ne.symm hfs.1) vs ds).symm

/-- Below a root, in the scope that it moves to. -/
theorem filled_added (hfs : k ∉ fs.map (·.1)) (hgs : k ∉ gs.map (·.1)) (root : Option String) (scope : Scope) :
    AgreeUnless (fun f => ∃ s, narrow root scope = .ok s ∧ value x expand s t = .error f)
      (fun w w' => w = w'.dropField k) (filled root (fun s => fields x expand s (fs ++ gs)) scope)
      (filled root (fun s => fields x expand s (fs ++ (k, t) :: gs)) scope) := by
  rw [filled, filled]
  refine .bind_same fun s hs => ?_
  refine ((fields_added hfs hgs).imp (fun f hf => ⟨s, hs, hf⟩) fun r q h => h).bind ?_
  rintro r q rfl
  exact .ok (Value.dropField_ofRecord k q).symm

/-- In a list below a root, what is empty without the field is left out once more. -/
theorem item_added_rooted (hx : x.mappingHook = none) (hfs : k ∉ fs.map (·.1)) (hgs : k ∉ gs.map (·.1)) (root : String)
    (source source' : Entries) :
    AgreeUnless (fun f => ∃ s, found (scope.findAll root) = .ok s
        ∧ ∃ e ∈ s.elements, value x expand (.of e) t = .error f)
      (fun vs vs' => vs = (vs'.map (Value.dropField k)).filter (!·.isEmptyMap))
      (item x expand scope (.mapping (.mk (some root) (fs ++ gs) source)))
      (item x expand scope (.mapping (.mk (some root) (fs ++ (k, t) :: gs) source'))) := by
  rw [item, item, many, many, records_eq hx, records_eq hx, bind_assoc, bind_assoc]
  refine .bind_same fun s hs => ?_
  have hall : AgreeUnless (fun f => ∃ s, found (scope.findAll root) = .ok s
        ∧ ∃ e ∈ s.elements, value x expand (.of e) t = .error f)
      (List.Forall₂ fun w w' => w = w'.dropField k)
      (s.elements.mapM fun e => filled none (fun s => fields x expand s (fs ++ gs)) (.of e))
      (s.elements.mapM fun e => filled none (fun s => fields x expand s (fs ++ (k, t) :: gs)) (.of e)) := by
    refine .mapM fun e he => (filled_added hfs hgs none (.of e)).imp ?_ fun w w' h => h
    rintro f ⟨_, ⟨⟩, hf⟩
    exact ⟨s, hs, e, he, hf⟩
  refine hall.bind fun vs vs' h => .ok ?_
  obtain rfl : vs = vs'.map (Value.dropField k) := by
    rw [← List.forall₂_eq_eq_eq, List.forall₂_map_right_iff]
    exact h
  exact Value.filter_dropField k vs'

/-- In a list without a root, records that are empty without the field may follow the others. -/
theorem item_added (hfs : k ∉ fs.map (·.1)) (hgs : k ∉ gs.map (·.1)) (source source' : Entries) :
    AgreeUnless (fun f => column x expand scope t = .error f)
      (fun vs vs' => ∃ n, vs'.map (Value.dropField k) = vs ++ List.replicate n (.ofRecord []))
      (item x expand scope (.mapping (.mk none (fs ++ gs) source)))
      (item x expand scope (.mapping (.mk none (fs ++ (k, t) :: gs) source'))) := by
  rw [item, item, many, many, bind_assoc, bind_assoc]
  refine (columns_added hfs hgs).bind ?_
  rintro _ cs rfl
  refine .ok ⟨Columns.height cs - Columns.height (dropName k cs), ?_⟩
  have hdrop : Value.dropField k ∘ Value.ofRecord = Value.ofRecord ∘ dropName k := funext (Value.dropField_ofRecord k)
  rw [Schema.inList, Schema.inList, List.map_map, hdrop, ← List.map_map, Columns.zip_dropName, List.map_append,
    List.map_replicate]

/-- A list of one item has what the item adds to it. -/
theorem resolve_list_item (hx : x.mappingHook = none) {v : Value} {i : Item Entries}
    (hv : Schema.compile v = .ok i.toSchema) (scope : Scope) :
    resolve x (.list [v]) scope = item x (expanding x 0) scope i.toSchema >>= fun vs => .ok (.list vs) := by
  rw [resolve_ok (Schema.compile_list_item hv), value_expand hx _ (expanding x 0), value, items_cons, bind_assoc]
  simp [items]

theorem resolve_list_mapping (hx : x.mappingHook = none) {v : Value} {m : Mapping Entries}
    (hv : Schema.compile v = .ok (.mapping m)) (scope : Scope) :
    resolve x (.list [v]) scope = item x (expanding x 0) scope (.mapping m) >>= fun vs => .ok (.list vs) :=
  resolve_list_item hx (i := .mapping m) hv scope

/-- A list of records with one field has a record for each place of the column. -/
theorem resolve_list_single (hx : x.mappingHook = none) (hk : k ≠ "$root") {c : Value} (hc : Schema.compile c = .ok t)
    (scope : Scope) :
    resolve x (.list [.map [(.text k, c)]]) scope = column x (expanding x 0) scope t >>= fun vs =>
      .ok (.list ((vs.map fun v => Value.consField k v.present? []).map .ofRecord)) := by
  rw [resolve_list_mapping hx (Schema.compile_single hk hc), item, many, columns_cons, columns]
  simp only [bind_assoc, pure_eq_ok, ok_bind, Columns.zip_single, Schema.inList]

/-- The new field fails in a list without a root as it does in a record of its own there. -/
theorem resolve_single_field (hx : x.mappingHook = none) (hk : k ≠ "$root") {c : Value}
    (hc : Schema.compile c = .ok t) {scope : Scope} {f : Fault}
    (hf : column x (expanding x 0) scope t = .error f) : resolve x (.list [.map [(.text k, c)]]) scope = .error f := by
  rw [resolve_list_single hx hk hc, hf, error_bind]

/-- A selector that is refused, other than as no selector at all, fails where there is something to look in. -/
theorem single_refused (hx : x.queryHook = none) {e s : String} (hs : x.dialect.selectorOf? e = some s) {f : Css.Fault}
    (hread : Css.Library.read s = .error f) (hf : f ≠ .invalid) (hscope : scope.elements ≠ []) :
    single x e scope = .error (.selector f) := by
  obtain ⟨q, hq, hselector⟩ := query_selector hs
  have hempty : scope.elements.isEmpty = false := by simpa using hscope
  rw [single_eq hx, hq, ok_bind, takeOne, findOne, hselector]
  simp only [Scope.findFirst?, Scope.search, hempty, hread]
  cases f <;> simp_all [found]

end Meaning

/-! ## Calls -/

/-- A field that is added to a mapping, under a new name and anywhere among its entries, leaves everything else as it
was, unless the field itself fails where it is met: the record without it is the record from before; of a list below a
root, the records without it that are not empty are the list from before; and in a list without a root the records
without it are those from before, with empty ones behind. -/
theorem Extractor.result_added [Css.Library] (page : Element) (o : Options) (hm : o.mappingHook = none) (history : List Call)
    {front back : Entries} {k : String} (hk : k ≠ "$root") (hnew : Value.find? (.text k) (front ++ back) = none)
    {m : Mapping Entries} (hF : Schema.compile (.map (front ++ back)) = .ok (.mapping m)) {c : Value} {t : Compiled}
    (hc : Schema.compile c = .ok t) (scope : Option Scope) :
    let x := (fresh page o).after history
    let here : Scope := scope.getD (.of page)
    let plain : Value := .map (front ++ back)
    let wider : Value := .map (front ++ (.text k, c) :: back)
    AgreeUnless (fun f => ∃ s, Meaning.narrow m.root here = .ok s ∧ x.result c (some s) = .error f)
        (fun w w' => w = w'.dropField k) (x.result plain scope) (x.result wider scope)
      ∧ (∀ r, m.root = some r →
        AgreeUnless (fun f => ∃ s, Meaning.found (here.findAll r) = .ok s
            ∧ ∃ e ∈ s.elements, x.result c (some (.of e)) = .error f)
          (fun w w' => ∃ vs vs', w = .list vs ∧ w' = .list vs'
            ∧ vs = (vs'.map (Value.dropField k)).filter (!·.isEmptyMap))
          (x.result (.list [plain]) scope) (x.result (.list [wider]) scope))
      ∧ (m.root = none →
        AgreeUnless (fun f => x.result (.list [.map [(.text k, c)]]) scope = .error f)
          (fun w w' => ∃ vs vs' n, w = .list vs ∧ w' = .list vs'
            ∧ vs'.map (Value.dropField k) = vs ++ List.replicate n (.ofRecord []))
          (x.result (.list [plain]) scope) (x.result (.list [wider]) scope)) := by
  have hx : o.engine.mappingHook = none := by simp [Options.engine, hm]
  obtain ⟨root, hs, source⟩ := m
  obtain ⟨fs, gs, hsplit, hfs, hgs, hF'⟩ := Schema.compile_added hk hnew hF hc
  obtain rfl : hs = fs ++ gs := hsplit
  have hvalue : ∀ s, Meaning.resolve o.engine c s = Meaning.value o.engine (Meaning.expanding o.engine 0) s t :=
    fun s => by rw [Meaning.resolve_ok hc, Meaning.value_expand hx _ (Meaning.expanding o.engine 0)]
  simp only [result_after, Option.getD_some, hvalue, Meaning.resolve_mapping hx hF, Meaning.resolve_mapping hx hF',
    Meaning.resolve_list_mapping hx hF, Meaning.resolve_list_mapping hx hF']
  refine ⟨Meaning.filled_added hfs hgs root _, ?_, ?_⟩
  · rintro r rfl
    refine (Meaning.item_added_rooted hx hfs hgs r _ _).bind fun vs vs' h => ?_
    exact .ok ⟨vs, vs', rfl, rfl, h⟩
  · rintro rfl
    refine ((Meaning.item_added hfs hgs _ _).imp ?_ fun _ _ h => h).bind ?_
    · exact fun f hf => Meaning.resolve_single_field hx hk hc hf
    · rintro vs vs' ⟨n, h⟩
      exact .ok ⟨vs, vs', n, rfl, rfl, h⟩

namespace Sample

/-- What the titles compile to. -/
def titled : Mapping Entries := .mk (some "li") [("title", .text "b")] titles

theorem result_titles :
    (Extractor.fresh page options).result (.list [.map titles]) none
      = .ok (.list [.ofRecord [("title", .text "x")]]) := by
  have hs : Schema.compile (.list [.map titles]) = .ok (.list [.mapping titled]) := rfl
  have hr : (Extractor.fresh page options).result (.list [.map titles]) none = _ :=
    Extractor.result_after page options [] _ none
  rw [hr, Meaning.resolve_ok hs, Option.getD_none, Meaning.value, titled, items_page]
  rfl

/-- A list without items fails nowhere. -/
theorem result_nil (scope : Option Scope) :
    (Extractor.fresh page options).result (.list []) scope = .ok (.list []) := by
  have hr : (Extractor.fresh page options).result (.list []) scope = _ :=
    Extractor.result_after page options [] (.list []) scope
  rw [hr, Meaning.resolve_ok (s := .list []) rfl, Meaning.value, Meaning.items]
  rfl

theorem query_plain : Meaning.query plain.engine "b" = .ok { selector := some "b", expression := "b" } := by
  have h : selects "b" (plain.dialect.read "b") = true := by decide +kernel
  obtain ⟨events, hr⟩ := eq_of_selects h
  simp only [Meaning.query, Options.engine, hr]

theorem single_before :
    Meaning.single plain.engine "p::before" (.of page) = .error (.selector (.pseudoElement 1)) := by
  have hselector : plain.engine.dialect.selectorOf? "p::before" = some "p::before" := selectorOf?_before
  exact Meaning.single_refused rfl hselector read_before nofun (by simp [Scope.of])

end Sample

/-- Between the root of the titles and their field a list is added, which is empty everywhere: the second item has a
record now, but without the list it is none. -/
theorem Extractor.result_added_sample :
    let x := (fresh Sample.page Sample.options).after []
    let wider : Value := .map [(Schema.rootKey, .text "li"), (.text "more", .list []), (.text "title", .text "b")]
    x.result (.list [.map Sample.titles]) none = .ok (.list [.ofRecord [("title", .text "x")]])
      ∧ ∃ vs', x.result (.list [wider]) none = .ok (.list vs')
        ∧ [.ofRecord [("title", .text "x")]] = (vs'.map (Value.dropField "more")).filter (!·.isEmptyMap) := by
  have hnew : Value.find? (.text "more") ([(Schema.rootKey, .text "li")] ++ [(.text "title", .text "b")]) = none := rfl
  have hplain : Sample.titles = [(Schema.rootKey, .text "li")] ++ [(.text "title", .text "b")] := rfl
  have law := result_added Sample.page Sample.options rfl [] (by decide) hnew (m := Sample.titled) rfl
    (c := .list []) (t := .list []) rfl none
  have hlist := law.2.1 "li" rfl
  have htitles : ((fresh Sample.page Sample.options).after []).result (.list [.map Sample.titles]) none = _ :=
    Sample.result_titles
  rw [← hplain, htitles] at hlist
  obtain ⟨w', hw', vs, vs', hvs, rfl, heq⟩ := hlist.exists_ok fun f _ hown => by
    obtain ⟨s, -, e, -, hfail⟩ := hown
    have hnil : ((fresh Sample.page Sample.options).after []).result (.list []) (some (.of e)) = _ :=
      Sample.result_nil (some (.of e))
    rw [hnil] at hfail
    cases hfail
  cases hvs
  exact ⟨htitles, vs', hw', heq⟩

/-- A field whose selector is not supported takes all others with it. -/
theorem Extractor.addition_fails :
    ¬∀ (page : Element) (o : Options) (r : Registry), o.dialect = r.dialect → o.queryHook = none →
      o.mappingHook = none → (∀ p ∈ r, ∀ v args, ∃ w, p.2.run v args = .ok w) →
      ∀ (front back : Entries) (k : String), k ≠ "$root" → Value.find? (.text k) (front ++ back) = none →
      ∀ (m : Mapping Entries), Schema.compile (.map (front ++ back)) = .ok (.mapping m) →
      ∀ (c : Value) (t : Compiled), Schema.compile c = .ok t → ∀ scope : Option Scope,
        ((fresh page o).result (.map (front ++ (.text k, c) :: back)) scope).map (Value.dropField k)
          = (fresh page o).result (.map (front ++ back)) scope := by
  intro h
  have hsame := h Sample.page Sample.plain [] rfl rfl rfl (by simp) [(.text "title", .text "b")] [] "more" (by decide)
    rfl (.mk none [("title", .text "b")] [(.text "title", .text "b")]) rfl (.text "p::before") (.text "p::before") rfl
    none
  have hplain : (fresh Sample.page Sample.plain).result (.map [(.text "title", .text "b")]) none = _ :=
    result_after Sample.page Sample.plain [] _ none
  have hwider : (fresh Sample.page Sample.plain).result
      (.map [(.text "title", .text "b"), (.text "more", .text "p::before")]) none = _ :=
    result_after Sample.page Sample.plain [] _ none
  have htitle : Meaning.single Sample.plain.engine "b" (.of Sample.page) = _ :=
    Sample.single_name rfl Sample.query_plain Sample.selectFirst_title
  have hs : Schema.compile (.map [(.text "title", .text "b")])
      = .ok (.mapping (.mk none [("title", .text "b")] _)) := rfl
  have ht : Schema.compile (.map [(.text "title", .text "b"), (.text "more", .text "p::before")])
      = .ok (.mapping (.mk none [("title", .text "b"), ("more", .text "p::before")] _)) := rfl
  simp only [List.append_nil, List.singleton_append, hplain, hwider] at hsame
  rw [Meaning.resolve_mapping rfl hs, Meaning.resolve_mapping rfl ht] at hsame
  simp only [Option.getD_none, Meaning.filled, Meaning.narrow, Meaning.fields, Meaning.value, htitle,
    Sample.single_before, ok_bind, error_bind, pure_eq_ok] at hsame
  cases hsame

end Harvest
