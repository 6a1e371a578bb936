import AgileSeal.Proofs.Engine.Opening
import AgileSeal.Proofs.Handler.RoundTrip
import AgileSeal.Proofs.Keys.KeyFile

set_option autoImplicit false

/-! # What a handler seals, it opens

A handler gives a text back exactly when it does not turn the bundle down, finds keys for it and
its engine opens it with them (`Handler.answer_eq_ok_iff`). A handler with a key file takes its
keys from there for both directions, so it opens what it has sealed as long as the file is the same
(`Handler.FileSealed.opens`). Together with passphrases this covers every handler
(`Handler.answer_of_encrypt`).
-/

namespace AgileSeal

namespace Handler

/-! ## Opening -/

theorem refusal?_eq_none_iff {h : Handler} {b : Bundle} {label : LabelMatch} :
    h.refusal? b label = none ↔
      ¬(label = .exact ∧ b.suiteId ≠ h.suiteId) ∧ b.defect? h.suite = none := by
  rw [refusal?]
  by_cases hlabel : label = .exact ∧ b.suiteId ≠ h.suiteId
  · rw [if_pos hlabel]
    constructor
    · intro hnone
      cases hnone
    · rintro ⟨hmatches, -⟩
      exact absurd hlabel hmatches
  · rw [if_neg hlabel, and_iff_right hlabel]
    cases b.defect? h.suite with
    | none => exact iff_of_true rfl rfl
    | some defect =>
        constructor <;>
        · intro hnone
          cases hnone

/-- What opening a bundle asks of a handler. -/
theorem answer_eq_ok_iff {h : Handler} {files : FileSystem} {b : Bundle}
    {credentials : Credentials} {label : LabelMatch} {plaintext : Bytes} :
    h.answer files b credentials label = .ok plaintext ↔ h.refusal? b label = none ∧
      ∃ keys, h.material files b credentials = .ok keys ∧
        h.engine.reveal b keys label = .ok plaintext := by
  rw [answer]
  cases h.refusal? b label with
  | some reason =>
      constructor
      · intro hanswer
        cases hanswer
      · rintro ⟨hnone, -⟩
        cases hnone
  | none =>
      rw [and_iff_right rfl]
      cases h.material files b credentials with
      | error reason =>
          constructor
          · intro hanswer
            cases hanswer
          · rintro ⟨keys, hkeys, -⟩
            cases hkeys
      | ok keys =>
          constructor
          · intro hanswer
            exact ⟨keys, rfl, Engine.decrypt_eq_ok_iff.mp hanswer⟩
          · rintro ⟨_, hkeys, hreveal⟩
            cases hkeys
            exact Engine.decrypt_eq_ok_iff.mpr hreveal

/-- A handler that does not turn a bundle down answers with what its engine reveals. -/
theorem isOk_answer {h : Handler} {files : FileSystem} {b : Bundle} {credentials : Credentials}
    {label : LabelMatch} {keys : KeyMaterial} (hrefusal : h.refusal? b label = none)
    (hkeys : h.material files b credentials = .ok keys) :
    (h.answer files b credentials label).isOk = (h.engine.reveal b keys label).isOk := by
  unfold answer
  rw [hrefusal, hkeys]
  simp only [Engine.value_decrypt]
  cases h.engine.reveal b keys label <;> rfl

/-- Keys for a passphrase fit the suite and have their private halves. -/
theorem fits_of_material {h : Handler} {files : FileSystem} {b : Bundle} {text : String}
    {keys : KeyMaterial} (hkeys : h.material files b (.passphrase text) = .ok keys) :
    keys.problem? h.suite = none ∧ keys.hasPrivateKeys = true := by
  cases h with
  | keyFile engine => cases hkeys
  | passphrase engine params =>
      obtain ⟨salt, stretched, -, -, hexpand⟩ := passphraseMaterial_eq_ok_iff.mp hkeys
      have hwhole := KeyMaterial.whole_ofStretched hexpand
      exact ⟨hwhole.problem?_eq_none, hwhole.hasPrivateKeys⟩

/-! ## Sealing with a key file -/

/-- An encryption with the keys in a file and the run of the engine. -/
structure FileSealed (suite : SuiteDefinition) (params : Params) (files : FileSystem)
    (path : String) (plaintext : Bytes) (s : RandomStream) where
  keys : KeyMaterial
  mode : suite.mode = .keyFile
  load : KeyFile.load files path suite = .ok keys
  run : (Engine.new suite params).Run plaintext keys s

/-- The bundle of an encryption with a key file records no cost. -/
def FileSealed.bundle {suite : SuiteDefinition} {params : Params} {files : FileSystem}
    {path : String} {plaintext : Bytes} {s : RandomStream}
    (x : FileSealed suite params files path plaintext s) : Bundle := x.run.recorded none

variable {suite : SuiteDefinition} {params : Params} {files : FileSystem} {path : String}
  {plaintext : Bytes} {s s' : RandomStream} {b : Bundle}

theorem exists_fileSealed
    (h : ((Handler.new suite params).encrypt files plaintext (.keyFile path) s).value
      = (.ok b, s')) : ∃ x : FileSealed suite params files path plaintext s, x.bundle = b := by
  rw [Handler.new] at h
  cases hmode : suite.mode with
  | passphrase =>
      rw [hmode] at h
      cases h
  | keyFile =>
      rw [hmode] at h
      obtain ⟨keys, s₁, h₁, h⟩ := Stateful.bind_eq_ok h
      obtain ⟨hload, rfl⟩ := Sealing.ofExcept_eq_ok_iff.mp h₁
      obtain ⟨run, rfl⟩ := Engine.exists_run h
      exact ⟨⟨keys, hmode, hload, run⟩, rfl⟩

theorem encrypt_of_fileSealed (x : FileSealed suite params files path plaintext s) :
    ((Handler.new suite params).encrypt files plaintext (.keyFile path) s).value.1
      = .ok x.bundle := by
  rw [new_of_keyFile x.mode]
  refine (Stateful.result_bind_ok (Sealing.ofExcept_eq_ok_iff.mpr ⟨x.load, rfl⟩)).trans ?_
  exact Engine.encrypt_of_run x.run

/-- A bundle of a text that is not huge can be written. -/
theorem FileSealed.exists_encode (x : FileSealed suite params files path plaintext s)
    (h : plaintext.length + params.saltLength.toNat + 1300 ≤ Body.maxLength) :
    ∃ blob, x.bundle.encode = .ok blob := by
  have hsalt : (x.keys.passphraseSalt.getD []).length = 0 := by
    rw [(KeyFile.fits_of_load x.load).2]
    rfl
  have hfresh : (Engine.new suite params).saltLength = params.saltLength.toNat := rfl
  exact x.run.exists_encode none (by omega)

/-- The bundle has everything that the suite needs. -/
theorem FileSealed.defect? (x : FileSealed suite params files path plaintext s)
    (hvalid : params.validate = .ok ()) : x.bundle.defect? suite = none := by
  have hsalt : 0 < (Engine.new suite params).saltLength :=
    Nat.lt_of_lt_of_le (by decide) (Params.le_saltLength hvalid)
  refine x.run.defect?_recorded hsalt ?_ rfl suite.id
  show Bundle.saltDefect? suite.mode x.keys.passphraseSalt = none
  rw [x.mode]
  rfl

/-- **What a key file seals, it opens**, as long as the same keys are found in it. -/
theorem FileSealed.opens (x : FileSealed suite params files path plaintext s)
    (hvalid : params.validate = .ok ()) (hagree : x.keys.Agrees suite s) {files' : FileSystem}
    (hload : KeyFile.load files' path suite = .ok x.keys) (params' : Params) (label : LabelMatch) :
    (Handler.new suite params').answer files' x.bundle (.keyFile path) label = .ok plaintext := by
  have hform := x.defect? hvalid
  refine answer_eq_ok_iff.mpr ⟨refusal?_eq_none_iff.mpr ⟨?_, ?_⟩, x.keys, ?_, ?_⟩
  · rw [suiteId_new]
    rintro ⟨-, hne⟩
    exact hne rfl
  · rwa [suite_new]
  · rw [new_of_keyFile x.mode]
    exact mapError_eq_ok_iff.mpr hload
  · rw [engine_new]
    exact x.run.reveal hagree rfl hform (.inr rfl)

end Handler

/-! ## Sealing with any credentials -/

/-- The key encapsulations of a suite agree on the keys that credentials stand for and on what an
encryption draws. -/
def Credentials.Agree (credentials : Credentials) (suite : SuiteDefinition) (params : Params)
    (files : FileSystem) (s : RandomStream) : Prop :=
  match credentials with
  | .passphrase text => KemsAgree suite params text s
  | .keyFile path => ∀ keys, KeyFile.load files path suite = .ok keys → keys.Agrees suite s

/-- The key file of credentials, if they are one, is the same in two file systems. -/
def Credentials.Unchanged (credentials : Credentials) (files files' : FileSystem) : Prop :=
  ∀ path, credentials = .keyFile path → files'.read path = files.read path

namespace Handler

/-- The cost that a bundle of a suite records. -/
def recordedCost (suite : SuiteDefinition) (params : Params) : Option StretchCost :=
  match suite.mode with
  | .passphrase => some (.ofParams suite.passphraseKdf params)
  | .keyFile => none

variable {suite : SuiteDefinition} {params : Params} {files files' : FileSystem}
  {credentials : Credentials} {plaintext : Bytes} {s s' : RandomStream} {b : Bundle}

/-- What a handler seals says so: it has the label and the form of the suite and records its cost,
and a salt only if there is a passphrase. -/
theorem bundle_of_encrypt (hvalid : params.validate = .ok ())
    (h : ((Handler.new suite params).encrypt files plaintext credentials s).value = (.ok b, s')) :
    b.toHeader = Header.ofSuite suite.id ∧ b.defect? suite = none ∧
      b.stretchCost = recordedCost suite params ∧
      (suite.mode = .keyFile → b.passphraseSalt = none) := by
  cases credentials with
  | passphrase text =>
      obtain ⟨x, rfl⟩ := exists_sealed h
      refine ⟨rfl, x.defect? suite.id, ?_, ?_⟩
      · rw [recordedCost, x.mode]
        rfl
      · intro hmode
        rw [x.mode] at hmode
        cases hmode
  | keyFile path =>
      obtain ⟨x, rfl⟩ := exists_fileSealed h
      refine ⟨rfl, x.defect? hvalid, ?_, fun _ => (KeyFile.fits_of_load x.load).2⟩
      rw [recordedCost, x.mode]
      rfl

/-- **What a handler seals, it opens** with the same credentials, whatever its parameters have
become. -/
theorem answer_of_encrypt (hvalid : params.validate = .ok ())
    (h : ((Handler.new suite params).encrypt files plaintext credentials s).value = (.ok b, s'))
    (hagree : credentials.Agree suite params files s) (hfiles : credentials.Unchanged files files')
    (params' : Params) :
    (Handler.new suite params').answer files' b credentials .exact = .ok plaintext := by
  cases credentials with
  | passphrase text =>
      obtain ⟨x, rfl⟩ := exists_sealed h
      exact x.opens hagree suite.id params' files' (.inr rfl)
  | keyFile path =>
      obtain ⟨x, rfl⟩ := exists_fileSealed h
      have hload : KeyFile.load files' path suite = .ok x.keys := by
        rw [KeyFile.load_congr (hfiles path rfl), x.load]
      exact x.opens hvalid (hagree x.keys x.load) hload params' .exact

end Handler

end AgileSeal
