import AgileSeal.Proofs.Config.Document
import AgileSeal.Proofs.Config.Source
import AgileSeal.Proofs.Json.Objects
import AgileSeal.Proofs.Operations
import AgileSeal.Proofs.Suite.Table

set_option autoImplicit false

/-! # Loading a table of suites is building it

A table of suites may be built by adding one suite after the other (`SuiteTable.build`), or be
loaded from an object that lists them. The two check the ids at different places, but they agree:
the ids are compared as they are after their escapes have been read, so two spellings of one id are
the same id (`SuiteTable.read_eq_build`).

Building succeeds if no id is repeated. The table then has the entries of the list and no others,
and if an id is repeated the first one that is stops the building (`SuiteTable.built_or_repeated`).
-/

namespace AgileSeal

open Json Json.Reader

/-! ## How suites are written -/

namespace SuiteNames

/-- The fields that a suite must have. -/
def requiredNames : List String :=
  ["classical_kem_algorithm", "pqc_kem_algorithm", "symmetric_algorithm", "kdf_algorithm",
    "key_management_mode"]

/-- The texts of the fields of a suite. A way of stretching that is not named may be null. -/
inductive FieldText (names : SuiteNames) : String → List Char → Prop
  | classicalKem {text : List Char} (written : StringText names.classicalKem text) :
    FieldText names "classical_kem_algorithm" text
  | pqcKem {text : List Char} (written : StringText names.pqcKem text) :
    FieldText names "pqc_kem_algorithm" text
  | symmetric {text : List Char} (written : StringText names.symmetric text) :
    FieldText names "symmetric_algorithm" text
  | kdf {text : List Char} (written : StringText names.kdf text) :
    FieldText names "kdf_algorithm" text
  | mode {text : List Char} (written : StringText names.mode text) :
    FieldText names "key_management_mode" text
  | stretching {name : String} {text : List Char} (named : names.passphraseKdf = some name)
    (written : StringText name text) : FieldText names "passphrase_kdf" text
  | noStretching {space : List Char} (unnamed : names.passphraseKdf = none) (gap : Gap space) :
    FieldText names "passphrase_kdf" (space ++ ['n', 'u', 'l', 'l'])

/-- **The object of a suite**: its fields in any order, each of them once, and all that it needs. -/
def Written (names : SuiteNames) (text : List Char) : Prop :=
  ∃ fields, ObjectText id names.FieldText fields text ∧ fields.Nodup ∧
    (∀ name ∈ requiredNames, name ∈ fields) ∧
    (names.passphraseKdf.isSome → "passphrase_kdf" ∈ fields)

/-- What a field makes of a suite that is being read. -/
def put (names record : SuiteNames) (field : String) : SuiteNames where
  classicalKem := if field = "classical_kem_algorithm" then names.classicalKem
    else record.classicalKem
  pqcKem := if field = "pqc_kem_algorithm" then names.pqcKem else record.pqcKem
  symmetric := if field = "symmetric_algorithm" then names.symmetric else record.symmetric
  kdf := if field = "kdf_algorithm" then names.kdf else record.kdf
  mode := if field = "key_management_mode" then names.mode else record.mode
  passphraseKdf := if field = "passphrase_kdf" then names.passphraseKdf else record.passphraseKdf

/-- Every text of a field has the effect of the field. -/
theorem FieldText.effect {names : SuiteNames} {field : String} {text : List Char}
    (h : names.FieldText field text) :
    shape.Effect field text fun record => .ok (names.put record field) := by
  cases h with
  | classicalKem written =>
      exact ⟨_, rfl, fun record => (gives_text written).map fun s => { record with classicalKem := s }⟩
  | pqcKem written =>
      exact ⟨_, rfl, fun record => (gives_text written).map fun s => { record with pqcKem := s }⟩
  | symmetric written =>
      exact ⟨_, rfl, fun record => (gives_text written).map fun s => { record with symmetric := s }⟩
  | kdf written =>
      exact ⟨_, rfl, fun record => (gives_text written).map fun s => { record with kdf := s }⟩
  | mode written =>
      exact ⟨_, rfl, fun record => (gives_text written).map fun s => { record with mode := s }⟩
  | stretching named written =>
      refine ⟨_, rfl, fun record => ?_⟩
      have hgives := (gives_optional_text written).map fun s => { record with passphraseKdf := s }
      rw [← named] at hgives
      exact hgives
  | noStretching unnamed gap =>
      refine ⟨_, rfl, fun record => ?_⟩
      have hgives := (gives_null gap text).map fun s => { record with passphraseKdf := s }
      rw [← unnamed] at hgives
      exact hgives

/-- A field has what it is given if one of the fields of a list gives it. -/
theorem ite_mem_cons {α : Type} {key field : String} {fields : List String} {a b : α} :
    (if key ∈ fields then a else if field = key then a else b)
      = if key ∈ field :: fields then a else b := by
  by_cases hlater : key ∈ fields
  · rw [if_pos hlater, if_pos (List.mem_cons_of_mem _ hlater)]
  · by_cases hfirst : field = key
    · rw [if_neg hlater, if_pos hfirst, if_pos (hfirst ▸ List.mem_cons_self)]
    · have hnone : key ∉ field :: fields :=
        List.not_mem_cons_of_ne_of_not_mem (Ne.symm hfirst) hlater
      rw [if_neg hlater, if_neg hfirst, if_neg hnone]

/-- What fields make of a suite depends on which of them there are, and not on their order. -/
theorem foldl_put (names record : SuiteNames) (fields : List String) :
    fields.foldl names.put record = {
      classicalKem := if "classical_kem_algorithm" ∈ fields then names.classicalKem
        else record.classicalKem
      pqcKem := if "pqc_kem_algorithm" ∈ fields then names.pqcKem else record.pqcKem
      symmetric := if "symmetric_algorithm" ∈ fields then names.symmetric else record.symmetric
      kdf := if "kdf_algorithm" ∈ fields then names.kdf else record.kdf
      mode := if "key_management_mode" ∈ fields then names.mode else record.mode
      passphraseKdf := if "passphrase_kdf" ∈ fields then names.passphraseKdf
        else record.passphraseKdf } := by
  induction fields generalizing record with
  | nil => rfl
  | cons field fields ih =>
      rw [List.foldl_cons, ih]
      simp only [put, ite_mem_cons]

/-- With all that a suite has among the fields, whatever their order, the suite is complete. -/
theorem foldl_put_blank {names : SuiteNames} {fields : List String}
    (hrequired : ∀ name ∈ requiredNames, name ∈ fields)
    (hstretching : names.passphraseKdf.isSome → "passphrase_kdf" ∈ fields) :
    fields.foldl names.put blank = names := by
  have hstretched : (if "passphrase_kdf" ∈ fields then names.passphraseKdf else none)
      = names.passphraseKdf := by
    by_cases hthere : "passphrase_kdf" ∈ fields
    · exact if_pos hthere
    · rw [if_neg hthere]
      exact (Option.not_isSome_iff_eq_none.mp fun hsome => hthere (hstretching hsome)).symm
  rw [foldl_put, if_pos (hrequired _ (by decide)), if_pos (hrequired _ (by decide)),
    if_pos (hrequired _ (by decide)), if_pos (hrequired _ (by decide)),
    if_pos (hrequired _ (by decide))]
  simp only [blank, hstretched]

/-- **However a suite is written**, it is read. -/
theorem gives_written {names : SuiteNames} {text : List Char} (h : names.Written text) :
    Gives (record shape) text (.ok names) := by
  obtain ⟨fields, hobject, hnodup, hrequired, hstretching⟩ := h
  have hfields : ∀ field ∈ shape.fields, field.required = true → field.name ∈ requiredNames := by
    simp only [shape, List.forall_mem_cons]
    decide
  have hread : Gives (record shape) text _ := gives_record hobject (fun _ _ => FieldText.effect)
    ((List.map_id fields).symm ▸ hnodup) fun field hfield hneeded =>
      (List.map_id fields).symm ▸ hrequired _ (hfields field hfield hneeded)
  have hresult : fields.foldlM (fun record field => .ok (names.put record field)) blank
      = (.ok names : Except Problem SuiteNames) := by
    calc fields.foldlM (fun record field => Except.ok (names.put record field)) blank
        = Except.ok (fields.foldl names.put blank) := List.foldlM_pure ..
      _ = Except.ok names := congrArg Except.ok (foldl_put_blank hrequired hstretching)
  exact hresult ▸ hread

/-- The fields that are printed of a suite. -/
def printedFields (names : SuiteNames) : List (String × Printed) :=
  names.requiredFields ++
    (names.passphraseKdf.map fun name => ("passphrase_kdf", Printed.text name)).toList

theorem fieldText_printed {names : SuiteNames} {depth : Nat} :
    ∀ field ∈ names.printedFields, names.FieldText field.1 (' ' :: field.2 depth) := by
  have hgap : Gap [' '] := List.forall_mem_singleton.mpr rfl
  have hquoted (s : String) : StringText s (' ' :: Printed.quotedChars s) :=
    stringText_quotedChars s hgap
  refine List.forall_mem_append.mpr ⟨?_, ?_⟩
  · refine List.forall_mem_cons.mpr ⟨.classicalKem (hquoted _), ?_⟩
    refine List.forall_mem_cons.mpr ⟨.pqcKem (hquoted _), ?_⟩
    refine List.forall_mem_cons.mpr ⟨.symmetric (hquoted _), ?_⟩
    refine List.forall_mem_cons.mpr ⟨.kdf (hquoted _), ?_⟩
    exact List.forall_mem_singleton.mpr (.mode (hquoted _))
  · cases hnamed : names.passphraseKdf with
    | none => exact List.forall_mem_nil _
    | some name => exact List.forall_mem_singleton.mpr (.stretching hnamed (hquoted _))

/-- The printed description of a suite is one of the ways to write it. -/
theorem written_printed (names : SuiteNames) (depth : Nat) {space : List Char} (gap : Gap space) :
    names.Written (space ++ names.printed depth) := by
  have hobject : ObjectText Prod.fst (fun field text => names.FieldText field.1 text)
      names.printedFields (Printed.object (names.printedFields.map fun m => (m.1, m.2)) depth) :=
    objectText_object fieldText_printed
  have hsame : names.printedFields.map (fun m => (m.1, m.2)) = names.printedFields := List.map_id _
  rw [hsame] at hobject
  have hnames : names.printedFields.map Prod.fst
      = requiredNames ++ if names.passphraseKdf.isSome then ["passphrase_kdf"] else [] := by
    rw [printedFields, List.map_append]
    cases names.passphraseKdf <;> rfl
  refine ⟨_, (hobject.moved gap).map (f := Prod.fst) (fun _ => rfl) (fun _ _ h => h), ?_⟩
  rw [hnames]
  cases names.passphraseKdf.isSome with
  | false => exact ⟨by decide, by decide, by decide⟩
  | true => exact ⟨by decide, by decide, by decide⟩

end SuiteNames

/-! ## How tables are written -/

namespace SuiteTable

/-- **The object of a table**: one member for each entry of a list, in the order of the list. -/
def Written (entries : List (String × SuiteNames)) (text : List Char) : Prop :=
  ObjectText Prod.fst (fun e => e.2.Written) entries text

theorem gives_written {entries : List (String × SuiteNames)} {text : List Char}
    (h : Written entries text) :
    Gives read text (entries.foldlM (enter "suite id") IdMap.empty) :=
  gives_table h (fun _ _ => SuiteNames.gives_written) _ _

/-- Reading entries and adding them are refused for the same reason. -/
theorem mapError_foldlM_enter {entries : List (String × SuiteNames)}
    (hids : ∀ e ∈ entries, e.1 ≠ "") (t : SuiteTable) :
    (entries.foldlM (enter "suite id") t).mapError (fun problem => .configuration problem.message)
      = entries.foldlM (fun t e => t.add e.1 e.2) t := by
  induction entries generalizing t with
  | nil => rfl
  | cons e entries ih =>
      obtain ⟨hid, hids⟩ := List.forall_mem_cons.mp hids
      rw [List.foldlM_cons, List.foldlM_cons, enter, add, if_neg hid]
      cases t.contains e.1 with
      | true => rfl
      | false => exact ih hids (t.insert e.1 e.2)

end SuiteTable

/-! ## How configurations are written -/

namespace Config

/-- The texts of the fields of a configuration that has nothing but an active suite and a table. -/
inductive FieldText (active : String) (entries : List (String × SuiteNames)) :
    String → List Char → Prop
  | active {text : List Char} (written : StringText active text) :
    FieldText active entries "active_encryption_suite_id" text
  | suites {text : List Char} (written : SuiteTable.Written entries text) :
    FieldText active entries "suites" text

/-- **The object of a configuration** with its active suite and its table, in either order. -/
def Written (active : String) (entries : List (String × SuiteNames)) (text : List Char) : Prop :=
  ∃ fields, ObjectText id (FieldText active entries) fields text ∧
    (fields = ["active_encryption_suite_id", "suites"] ∨
      fields = ["suites", "active_encryption_suite_id"])

/-- What a field makes of a configuration that is being read. -/
def put (active : String) (entries : List (String × SuiteNames)) (field : String) (c : Config) :
    Except Json.Problem Config :=
  if field = "suites" then
    (entries.foldlM (enter "suite id") IdMap.empty).map fun suites => { c with suites }
  else .ok { c with active }

theorem FieldText.effect {active : String} {entries : List (String × SuiteNames)} {field : String}
    {text : List Char} (h : FieldText active entries field text) :
    shape.Effect field text (put active entries field) := by
  cases h with
  | active written =>
      exact ⟨_, rfl, fun c => (gives_text written).map fun s => { c with active := s }⟩
  | suites written =>
      exact ⟨_, rfl, fun c => (SuiteTable.gives_written written).map fun t => { c with suites := t }⟩

/-- The two fields make the same configuration in either order. -/
theorem foldlM_put {active : String} {entries : List (String × SuiteNames)} {fields : List String}
    (hfields : fields = ["active_encryption_suite_id", "suites"] ∨
      fields = ["suites", "active_encryption_suite_id"]) :
    fields.foldlM (fun c field => put active entries field c) shape.start
      = (entries.foldlM (enter "suite id") IdMap.empty).map fun suites =>
        { Config.new active [] .default with suites } := by
  have hnamed (c : Config) : put active entries "active_encryption_suite_id" c
      = .ok { c with active } := if_neg (by decide)
  have hlisted (c : Config) : put active entries "suites" c
      = (entries.foldlM (enter "suite id") IdMap.empty).map fun suites => { c with suites } :=
    if_pos rfl
  rcases hfields with rfl | rfl
  · simp only [List.foldlM_cons, List.foldlM_nil, hnamed, hlisted]
    cases entries.foldlM (enter "suite id") IdMap.empty <;> rfl
  · simp only [List.foldlM_cons, List.foldlM_nil, hnamed, hlisted]
    cases entries.foldlM (enter "suite id") IdMap.empty <;> rfl

/-- A configuration is read with the table that its entries make. -/
theorem gives_written {active : String} {entries : List (String × SuiteNames)} {text : List Char}
    (h : Written active entries text) : Gives (record shape) text
      ((entries.foldlM (enter "suite id") IdMap.empty).map fun suites =>
        { Config.new active [] .default with suites }) := by
  obtain ⟨fields, hobject, hfields⟩ := h
  have hneeded : ∀ field ∈ shape.fields, field.required = true →
      field.name ∈ ["active_encryption_suite_id", "suites"] := by
    simp only [shape, List.forall_mem_cons]
    decide
  have hnodup : (fields.map id).Nodup := by
    rcases hfields with rfl | rfl <;> decide
  have hread : Gives (record shape) text _ := gives_record hobject (fun _ _ => FieldText.effect)
    hnodup fun field hfield hrequired => by
      have hmem := hneeded field hfield hrequired
      rcases hfields with rfl | rfl
      · exact hmem
      · exact List.mem_reverse.mp hmem
  exact foldlM_put hfields ▸ hread

/-- **Loading a configuration** gives the table that is built, or fails as building does. -/
theorem ofJson_of_written {active : String} (hactive : Text.isAllBlank active = false)
    {entries : List (String × SuiteNames)} (hids : ∀ e ∈ entries, e.1 ≠ "") {document : String}
    (hdocument : DocumentOf (Written active entries) document) :
    ofJson document = (SuiteTable.build entries).map fun suites =>
      { Config.new active [] .default with suites } := by
  have hparse : parse document = (SuiteTable.build entries).map fun suites =>
      { Config.new active [] .default with suites } := by
    rw [parse, document_of_gives (fun _ => gives_written) hdocument, SuiteTable.build,
      ← SuiteTable.mapError_foldlM_enter hids]
    -- what is done with the table and what is done with a problem do not meet
    cases entries.foldlM (enter "suite id") IdMap.empty <;> rfl
  rw [ofJson, hparse]
  cases SuiteTable.build entries with
  | error e => rfl
  | ok suites =>
      have hvalid : ({ Config.new active [] .default with suites } : Config).validate = .ok () :=
        validate_iff.mpr ⟨hactive, rfl, rfl⟩
      exact bind_of_ok hvalid _

end Config

namespace SuiteTable

/-- **Loading a table is building it.** However a table is written that lists some entries, with ids
that are not empty, loading it gives the table that is built from the entries one by one, or fails
as building does, and a configuration with this table is loaded likewise. Both succeed if and only
if no id is repeated. The table then has these entries and no others, and otherwise the first id
that is repeated is reported. -/
theorem read_eq_build {entries : List (String × SuiteNames)} (hids : ∀ e ∈ entries, e.1 ≠ "")
    {document : String} (hdocument : DocumentOf (Written entries) document) :
    (Reader.document read document).mapError (fun problem => Error.configuration problem.message)
      = build entries ∧
    (∀ active config, Text.isAllBlank active = false →
      DocumentOf (Config.Written active entries) config →
      Config.ofJson config = (build entries).map fun suites =>
        { Config.new active [] .default with suites }) ∧
    ((∃ t, build entries = .ok t) ↔ (entries.map Prod.fst).Nodup) ∧
    (∀ t, build entries = .ok t → ∀ id names, t.get? id = some names ↔ (id, names) ∈ entries) ∧
    ∀ e, build entries = .error e → ∃ id, FirstRepeated entries id ∧
      e = .configuration (TableProblem.duplicateId id).message := by
  refine ⟨?_, fun active config hactive => Config.ofJson_of_written hactive hids,
    exists_build_iff hids, fun t hbuilt => ?_, fun e hstop => ?_⟩
  · rw [document_of_gives (fun _ => gives_written) hdocument, mapError_foldlM_enter hids, build]
  · rcases build_cases hids with ⟨-, t', hbuilt', hget⟩ | ⟨id, -, hstop⟩
    · rw [hbuilt] at hbuilt'
      cases hbuilt'
      exact hget
    · rw [hbuilt] at hstop
      cases hstop
  · rcases build_cases hids with ⟨-, t, hbuilt, -⟩ | ⟨id, hfirst, hstop'⟩
    · rw [hstop] at hbuilt
      cases hbuilt
    · rw [hstop] at hstop'
      cases hstop'
      exact ⟨id, hfirst, rfl⟩

/-- A suite of a table. -/
def sample : SuiteNames :=
  ⟨"X25519", "Kyber768", "AES-256-GCM", "HKDF-SHA256", "passphrase", some "Argon2id"⟩

/-- A table that lists two suites under one id, which is spelled with an escape the second time. -/
def twiceListed : String :=
  String.ofList ('\x7b' :: (['"', 'A', '"'] ++ (':' :: (sample.printed 0 ++
    ([','] ++ (['"', '\\', 'u', '0', '0', '4', '1', '"'] ++ (':' :: (sample.printed 0 ++
      ['\x7d']))))))))

theorem written_twiceListed : DocumentOf (Written [("A", sample), ("A", sample)]) twiceListed := by
  have hgap : Gap [] := List.forall_mem_nil _
  have hsuite : sample.Written (sample.printed 0) := sample.written_printed 0 hgap
  have hletter : Spells ['A'] ['A'] :=
    .cons (.plain (by decide) (by decide) (by decide)) .nil
  have hquad : Quad 'A'.toNat ['0', '0', '4', '1'] :=
    .mk (w := 0) (x := 0) (y := 4) (z := 1) (by decide) (by decide) (by decide) (by decide)
  have hescape : Spells ['A'] ['\\', 'u', '0', '0', '4', '1'] := .cons (.unit hquad) .nil
  have hplain : StringText "A" ['"', 'A', '"'] :=
    .mk (s := "A") hgap hletter
  have hescaped : StringText "A" ['"', '\\', 'u', '0', '0', '4', '1', '"'] :=
    .mk (s := "A") hgap hescape
  have hlast : MembersText Prod.fst (fun e => e.2.Written) false [("A", sample)] _ :=
    .member (.comma hgap) hescaped hgap hsuite (.close hgap)
  have hall : MembersText Prod.fst (fun e => e.2.Written) true
      [("A", sample), ("A", sample)] _ := .member .none hplain hgap hsuite hlast
  refine ⟨_, [], .mk hgap hall, hgap, ?_⟩
  rw [twiceListed, String.toList_ofList]
  simp only [List.nil_append, List.append_nil]

theorem read_eq_build_twiceListed :
    (Reader.document read twiceListed).mapError
      (fun problem => Error.configuration problem.message)
      = .error (.configuration "duplicate suite id `A`") := by
  have hids : ∀ e ∈ [("A", sample), ("A", sample)], e.1 ≠ "" := by decide
  exact (read_eq_build hids written_twiceListed).1

end SuiteTable

end AgileSeal
