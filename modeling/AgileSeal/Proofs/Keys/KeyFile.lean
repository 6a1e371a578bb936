import AgileSeal.Keys.KeyFile
import AgileSeal.Proofs.Base64.Canonical
import AgileSeal.Proofs.FileSystem
import AgileSeal.Proofs.Json.RoundTrip
import AgileSeal.Proofs.Operations

set_option autoImplicit false

/-! # Key files are read back

The document of a key file is read back as the file (`KeyFile.document_toJson`), whatever the id of
its suite, and each key in it has one spelling (`KeyFile.readKey_exact`). The keys that were written
to a path are the keys found there (`KeyFile.load_of_write`), but for the salt of a passphrase,
which has no place in the file. What is found fits the suite that looks for it
(`KeyFile.fits_of_material`), and it is one suite only that finds keys at a path
(`KeyFile.suiteId_of_load`).
-/

namespace AgileSeal.KeyFile

open Json Json.Reader

/-! ## Documents -/

/-- The fields that every key file has. -/
def requiredFields (f : KeyFile) : List (String × Printed) :=
  [("format", .text f.format), ("suite_id", .text f.suiteId),
    ("classical_public_key", .text f.classicalPublicKey),
    ("pqc_public_key", .text f.pqcPublicKey)]

theorem takes_requiredFields (f : KeyFile) :
    shape.Takes [] blank (f.requiredFields.map fun field => (field.1, field.2 1))
      ["pqc_public_key", "classical_public_key", "suite_id", "format"]
      { f with classicalPrivateKey := none, pqcPrivateKey := none } := by
  show shape.Takes [] blank [("format", Printed.quotedChars f.format),
    ("suite_id", Printed.quotedChars f.suiteId),
    ("classical_public_key", Printed.quotedChars f.classicalPublicKey),
    ("pqc_public_key", Printed.quotedChars f.pqcPublicKey)] _ _
  refine .cons rfl (by decide) ((reads_text f.format).map _) ?_
  refine .cons rfl (by decide) ((reads_text f.suiteId).map _) ?_
  refine .cons rfl (by decide) ((reads_text f.classicalPublicKey).map _) ?_
  refine .cons rfl (by decide) ((reads_text f.pqcPublicKey).map _) ?_
  exact .nil _ _

/-! A private key that is there is taken, and one that is missing is not missed. -/

theorem takes_classicalPrivateKey {seen : List String} (fresh : "classical_private_key" ∉ seen)
    {f : KeyFile} (hf : f.classicalPrivateKey = none) (key : Option String) :
    shape.Takes seen f
      (((key.map fun k => ("classical_private_key", Printed.text k)).toList).map
        fun field => (field.1, field.2 1))
      (if key.isSome then "classical_private_key" :: seen else seen)
      { f with classicalPrivateKey := key } :=
  Shape.takes_optional_text (fun (f : KeyFile) k => { f with classicalPrivateKey := k }) rfl fresh
    (by rw [← hf]) key 1

theorem takes_pqcPrivateKey {seen : List String} (fresh : "pqc_private_key" ∉ seen)
    {f : KeyFile} (hf : f.pqcPrivateKey = none) (key : Option String) :
    shape.Takes seen f
      (((key.map fun k => ("pqc_private_key", Printed.text k)).toList).map
        fun field => (field.1, field.2 1))
      (if key.isSome then "pqc_private_key" :: seen else seen) { f with pqcPrivateKey := key } :=
  Shape.takes_optional_text (fun (f : KeyFile) k => { f with pqcPrivateKey := k }) rfl fresh
    (by rw [← hf]) key 1

/-- **The document of a key file is read back.** -/
theorem document_toJson (f : KeyFile) : document (record shape) f.toJson = .ok f := by
  have hrequired := takes_requiredFields f
  have hclassical := hrequired.append
    (takes_classicalPrivateKey (by decide) rfl f.classicalPrivateKey)
  have hpqc := hclassical.append
    (takes_pqcPrivateKey (by split <;> decide) rfl f.pqcPrivateKey)
  rw [← List.map_append, ← List.map_append] at hpqc
  refine document_of_reads (reads_record hpqc ?_)
  cases f.classicalPrivateKey <;> cases f.pqcPrivateKey <;> rfl

/-! ## Keys -/

theorem readKey_encode (field : String) (key : Bytes) :
    readKey field (Base64.encode key) = .ok key := by
  rw [readKey, Base64.decode_encode]
  rfl

theorem readOptionalKey_encode (field : String) (key : Option Bytes) :
    readOptionalKey field (key.map Base64.encode) = .ok key := by
  cases key with
  | none => rfl
  | some key =>
      rw [Option.map_some, readOptionalKey, readKey_encode]
      rfl

/-- **Keys have one spelling.** Whatever the field and its text, the text is read as a key exactly if
it is the base64 text of that key between blanks. Every other text is refused with the name of the
field and the first problem in it. The base64 texts are those of whole groups of symbols and padding
with no bits left over. -/
theorem readKey_exact (field text : String) :
    (∀ key, readKey field text = .ok key ↔ Text.trim text = Base64.encode key) ∧
    ((∃ problem : Base64.Problem, readKey field text
        = .error (.keyManagement (field ++ " is not valid base64: " ++ problem.message))) ↔
      ∀ key, Text.trim text ≠ Base64.encode key) ∧
    ((∃ key, Text.trim text = Base64.encode key) ↔
      ∃ vs pads, Base64.Canonical (Text.utf8 (Text.trim text)) vs pads) := by
  refine ⟨fun key => mapError_eq_ok_iff.trans Base64.decode_eq_ok_iff, ?_, Base64.exists_encode_iff⟩
  rw [readKey]
  constructor
  · rintro ⟨problem, h⟩ key hkey
    rw [Base64.decode_eq_ok_iff.mpr hkey] at h
    cases h
  · intro hforeign
    cases hdecode : Base64.decode text with
    | ok key => exact absurd (Base64.decode_eq_ok_iff.mp hdecode) (hforeign key)
    | error problem => exact ⟨problem, rfl⟩

/-- The keys in a file that was made from key material are that material, without the salt, for
every suite of that id that they fit. -/
theorem material_ofMaterial {suite suite' : SuiteDefinition} {k : KeyMaterial}
    (hid : suite'.id = suite.id) (h : k.problem? suite' = none) :
    (ofMaterial suite k).material suite' = .ok { k with passphraseSalt := none } := by
  have hfit : KeyMaterial.checkFor { k with passphraseSalt := none } suite' = .ok () :=
    (KeyMaterial.checkFor_eq_ok_iff _ _).mpr h
  have hformat : ¬(ofMaterial suite k).format ≠ formatName := not_not_intro rfl
  have hsuite : ¬(ofMaterial suite k).suiteId ≠ suite'.id := not_not_intro hid.symm
  rw [material, if_neg hformat, if_neg hsuite]
  refine bind_eq_ok_iff.mpr ⟨_, readKey_encode _ k.classicalPublicKey, ?_⟩
  refine bind_eq_ok_iff.mpr ⟨_, readKey_encode _ k.pqcPublicKey, ?_⟩
  refine bind_eq_ok_iff.mpr ⟨_, readOptionalKey_encode _ k.classicalPrivateKey, ?_⟩
  refine bind_eq_ok_iff.mpr ⟨_, readOptionalKey_encode _ k.pqcPrivateKey, ?_⟩
  exact check_bind_eq_ok_iff.mpr ⟨hfit, rfl⟩

/-- A file is turned down for a suite of another id, whatever its keys. -/
theorem material_ofMaterial_foreign {suite suite' : SuiteDefinition} (k : KeyMaterial)
    (hid : suite'.id ≠ suite.id) :
    (ofMaterial suite k).material suite' = .error (foreignSuite suite.id suite'.id) := by
  have hformat : ¬(ofMaterial suite k).format ≠ formatName := not_not_intro rfl
  have hsuite : (ofMaterial suite k).suiteId ≠ suite'.id := hid.symm
  rw [material, if_neg hformat, if_pos hsuite]
  rfl

/-- What stands in a key file belongs to the suite, fits it and is no passphrase's. -/
theorem fits_of_material {f : KeyFile} {suite : SuiteDefinition} {keys : KeyMaterial}
    (h : f.material suite = .ok keys) :
    f.suiteId = suite.id ∧ keys.problem? suite = none ∧ keys.passphraseSalt = none := by
  rw [material] at h
  split at h
  · cases h
  · split at h
    · cases h
    · rename_i hown
      obtain ⟨classicalPublicKey, -, h⟩ := bind_eq_ok_iff.mp h
      obtain ⟨pqcPublicKey, -, h⟩ := bind_eq_ok_iff.mp h
      obtain ⟨classicalPrivateKey, -, h⟩ := bind_eq_ok_iff.mp h
      obtain ⟨pqcPrivateKey, -, h⟩ := bind_eq_ok_iff.mp h
      obtain ⟨hfit, h⟩ := check_bind_eq_ok_iff.mp h
      cases h
      exact ⟨Decidable.not_not.mp hown, (KeyMaterial.checkFor_eq_ok_iff _ _).mp hfit, rfl⟩

/-! ## Files -/

/-- The key file that stands at a path. -/
def StandsAt (f : KeyFile) (files : FileSystem) (path : String) : Prop :=
  ∃ text, files.readText path = .ok text ∧ document (record shape) text = .ok f

/-- At most one key file stands at a path. -/
theorem StandsAt.eq {f f' : KeyFile} {files : FileSystem} {path : String}
    (h : f.StandsAt files path) (h' : f'.StandsAt files path) : f = f' := by
  obtain ⟨text, hread, hparse⟩ := h
  obtain ⟨text', hread', hparse'⟩ := h'
  cases hread.symm.trans hread'
  exact Except.ok.inj (hparse.symm.trans hparse')

/-- Loading takes the keys from the key file at the path. -/
theorem load_eq_ok_iff {files : FileSystem} {path : String} {suite : SuiteDefinition}
    {keys : KeyMaterial} : load files path suite = .ok keys ↔
      ∃ f : KeyFile, f.StandsAt files path ∧ f.material suite = .ok keys := by
  constructor
  · intro h
    obtain ⟨text, hread, h⟩ := bind_eq_ok_iff.mp h
    obtain ⟨f, hparse, hkeys⟩ := bind_eq_ok_iff.mp h
    exact ⟨f, ⟨text, mapError_eq_ok_iff.mp hread, mapError_eq_ok_iff.mp hparse⟩, hkeys⟩
  · rintro ⟨f, ⟨text, hread, hparse⟩, hkeys⟩
    refine bind_eq_ok_iff.mpr ⟨text, mapError_eq_ok_iff.mpr hread, ?_⟩
    exact bind_eq_ok_iff.mpr ⟨f, mapError_eq_ok_iff.mpr hparse, hkeys⟩

/-- Keys that are loaded fit the suite and are no passphrase's. -/
theorem fits_of_load {files : FileSystem} {path : String} {suite : SuiteDefinition}
    {keys : KeyMaterial} (h : load files path suite = .ok keys) :
    keys.problem? suite = none ∧ keys.passphraseSalt = none := by
  obtain ⟨f, -, hkeys⟩ := load_eq_ok_iff.mp h
  exact (fits_of_material hkeys).2

/-- Suites that load keys from one file have one id. -/
theorem suiteId_of_load {files : FileSystem} {path : String} {suite suite' : SuiteDefinition}
    {keys keys' : KeyMaterial} (h : load files path suite = .ok keys)
    (h' : load files path suite' = .ok keys') : suite.id = suite'.id := by
  obtain ⟨f, hstands, hkeys⟩ := load_eq_ok_iff.mp h
  obtain ⟨f', hstands', hkeys'⟩ := load_eq_ok_iff.mp h'
  calc suite.id = f.suiteId := (fits_of_material hkeys).1.symm
    _ = f'.suiteId := congrArg KeyFile.suiteId (hstands.eq hstands')
    _ = suite'.id := (fits_of_material hkeys').1

/-- Only the file at the path matters. -/
theorem load_congr {files files' : FileSystem} {path : String}
    (h : files'.read path = files.read path) (suite : SuiteDefinition) :
    load files' path suite = load files path suite := by
  rw [load, load, FileSystem.readText, FileSystem.readText, h]

/-- Keys are checked before they are written: the files are left alone unless the keys fit and a
file can be written to the path. -/
theorem on_store (path : String) (suite : SuiteDefinition) (k : KeyMaterial)
    (files : FileSystem) : (store path suite k).on files =
      match k.checkFor suite, files.write path (Text.utf8 (ofMaterial suite k).toJson) with
      | .error e, _ => (.error e, files)
      | .ok (), .error e => (.error (unwritable path e), files)
      | .ok (), .ok written => (.ok (), written) := by
  cases hfit : k.checkFor suite with
  | error e =>
      rw [store, hfit]
      rfl
  | ok u =>
      have hfile : (store path suite k).on files = (do
          let written ← (files.write path (Text.utf8 (ofMaterial suite k).toJson)).mapError
            (unwritable path)
          set written : Filing Unit).on files := by
        rw [store, hfit]
        rfl
      rw [hfile]
      cases files.write path (Text.utf8 (ofMaterial suite k).toJson) <;> rfl

/-- Keys that cannot be stored leave the files as they were. -/
theorem files_of_store_eq_error {path : String} {suite : SuiteDefinition} {k : KeyMaterial}
    {files files' : FileSystem} {e : Error}
    (h : (store path suite k).on files = (.error e, files')) : files' = files := by
  rw [on_store] at h
  split at h
  · exact (Prod.mk.inj h).2.symm
  · exact (Prod.mk.inj h).2.symm
  · cases h

/-- Keys are stored if they fit their suite and a file can be written to the path. -/
theorem store_eq_ok_iff {path : String} {suite : SuiteDefinition} {k : KeyMaterial}
    {files written : FileSystem} : (store path suite k).on files = (.ok (), written) ↔
      k.checkFor suite = .ok () ∧
        files.write path (Text.utf8 (ofMaterial suite k).toJson) = .ok written := by
  rw [on_store]
  split <;> simp [*]

/-- What is found at a path to which keys were written are the keys in the file that was made from
them. -/
theorem load_eq_material_of_write {files files' : FileSystem} {path : String}
    {suite : SuiteDefinition} {k : KeyMaterial}
    (h : (store path suite k).on files = (.ok (), files')) (suite' : SuiteDefinition) :
    load files' path suite' = (ofMaterial suite k).material suite' := by
  have hread := FileSystem.readText_of_write (store_eq_ok_iff.mp h).2
  exact (bind_of_ok (mapError_eq_ok_iff.mpr hread) _).trans
    (bind_of_ok (mapError_eq_ok_iff.mpr (document_toJson _)) _)

/-- **The keys that were written to a path are found there**, but for the salt of a
passphrase. -/
theorem load_of_write {files files' : FileSystem} {path : String} {suite : SuiteDefinition}
    {k : KeyMaterial} (h : (store path suite k).on files = (.ok (), files')) :
    load files' path suite = .ok { k with passphraseSalt := none } := by
  rw [load_eq_material_of_write h]
  exact material_ofMaterial rfl
    ((KeyMaterial.checkFor_eq_ok_iff _ _).mp (store_eq_ok_iff.mp h).1)

end AgileSeal.KeyFile
