import AgileSeal.Proofs.Engine.Opening
import AgileSeal.Proofs.Handler.RoundTrip

set_option autoImplicit false

/-! # Which bundles can be opened again

Encryption asks less of keys and parameters than decryption asks of a bundle: it accepts salts of
length zero, and keys for a passphrase without their salt. Whether the text comes back is known
before it is encrypted (`Engine.Recoverable`), and what is not recoverable is lost for good
(`Engine.decrypt_of_encrypt_publicOnly`).
-/

namespace AgileSeal

/-- A key encapsulation recovers secrets from inputs of its lengths only. -/
theorem Kem.lengths_of_decapsulate {k : Kem} {privateKey encapsulated secret : Bytes}
    (h : k.decapsulate privateKey encapsulated = .ok secret) :
    privateKey.length = k.privateKeyLength ∧ encapsulated.length = k.encapsulatedLength := by
  rw [decapsulate] at h
  split at h
  · rename_i hlengths
    exact hlengths
  · cases h

namespace Engine

/-! ## Runs with the public halves -/

namespace Run

variable {e : Engine} {plaintext : Bytes} {keys : KeyMaterial} {s : RandomStream}

/-- Private keys that undo a run fit the suite. -/
theorem keysFit_of_agrees (r : Run e plaintext keys.publicOnly s)
    (hagree : keys.Agrees e.suite s) : keys.problem? e.suite = none := by
  obtain ⟨classical, pqc, hclassical, hpqc, hagreeClassical, hagreePqc⟩ := hagree
  obtain ⟨hclassicalPublic, hpqcPublic, -, -⟩ := (KeyMaterial.problem?_eq_none_iff _ _).mp r.keysFit
  -- the private keys have not been checked, but they have been used
  have hclassicalPrivate := (Kem.lengths_of_decapsulate (hagreeClassical _ _ r.classical)).1
  have hpqcPrivate := (Kem.lengths_of_decapsulate (hagreePqc _ _ r.pqc)).1
  rw [KeyMaterial.problem?_eq_none_iff]
  refine ⟨hclassicalPublic, hpqcPublic, ?_, ?_⟩
  · intro key hkey
    cases hclassical.symm.trans hkey
    exact hclassicalPrivate
  · intro key hkey
    cases hpqc.symm.trans hkey
    exact hpqcPrivate

/-- Encryption does not look at private keys. -/
def withPrivateKeys (r : Run e plaintext keys.publicOnly s) (hfit : keys.problem? e.suite = none) :
    Run e plaintext keys s where
  ephemeral := r.ephemeral
  classicalSecret := r.classicalSecret
  encapsulated := r.encapsulated
  pqcSecret := r.pqcSecret
  key := r.key
  associated := r.associated
  ciphertext := r.ciphertext
  tag := r.tag
  nonempty := r.nonempty
  keysFit := hfit
  classical := r.classical
  pqc := r.pqc
  derived := r.derived
  header := r.header
  sealed := r.sealed

theorem bundle_withPrivateKeys (r : Run e plaintext keys.publicOnly s)
    (hfit : keys.problem? e.suite = none) : (r.withPrivateKeys hfit).bundle = r.bundle := rfl

/-! ## Recoverable bundles -/

/-- The bundle of a run has everything the suite needs exactly if the salts do. -/
theorem defect?_bundle_eq_none_iff (r : Run e plaintext keys s) :
    r.bundle.defect? e.suite = none ↔ 0 < e.saltLength ∧
      Bundle.saltDefect? e.suite.mode keys.passphraseSalt = none := by
  constructor
  · intro hform
    obtain ⟨-, hfields, hsalt, -⟩ := Bundle.defect?_eq_none_iff.mp hform
    obtain ⟨-, -, -, -, hfresh⟩ := Bundle.fieldDefect?_eq_none_iff.mp hfields
    refine ⟨Nat.pos_of_ne_zero ?_, hsalt⟩
    intro hzero
    have hlength : (e.freshSalt s).length = e.saltLength := RandomStream.length_segment _ _ _
    rw [hzero] at hlength
    exact hfresh (congrArg some (List.eq_nil_of_length_eq_zero hlength))
  · rintro ⟨hpos, hsalt⟩
    have hform : (r.recorded none).defect? (e.suite.relabelled e.suite.id) = none :=
      r.defect?_recorded hpos hsalt rfl e.suite.id
    exact hform

end Run

/-- What has to hold before a text is encrypted for it to come back: the salts of the parameters
are not empty, and where keys come from a passphrase, they carry a salt that is not empty. -/
def Recoverable (suite : SuiteDefinition) (params : Params) (keys : KeyMaterial) : Prop :=
  1 ≤ params.saltLength ∧
    (suite.mode = .keyFile ∨ ∃ salt, keys.passphraseSalt = some salt ∧ salt ≠ [])

theorem defect?_bundle_iff_recoverable {suite : SuiteDefinition} {params : Params}
    {plaintext : Bytes} {keys : KeyMaterial} {s : RandomStream}
    (r : Run (.new suite params) plaintext keys s) :
    r.bundle.defect? suite = none ↔ Recoverable suite params keys := by
  have hpos : 0 < (Engine.new suite params).saltLength ↔ 1 ≤ params.saltLength := by
    rw [UInt64.le_iff_toNat_le]
    exact Iff.rfl
  rw [Recoverable, ← hpos, ← Bundle.saltDefect?_eq_none_iff]
  exact r.defect?_bundle_eq_none_iff

/-- **Which bundles can be opened again.** A text that an engine has encrypted to the public halves
of key material comes back with the private halves if it was recoverable, and in every other case
decryption fails. -/
theorem decrypt_of_encrypt_publicOnly {suite : SuiteDefinition} {params : Params}
    {plaintext : Bytes} {keys : KeyMaterial} {s s' : RandomStream} {b : Bundle}
    (hagree : keys.Agrees suite s)
    (h : ((Engine.new suite params).encrypt plaintext keys.publicOnly s).value = (.ok b, s')) :
    (Recoverable suite params keys →
      ((Engine.new suite params).decrypt b keys .exact).value = .ok plaintext) ∧
    (¬Recoverable suite params keys →
      ((Engine.new suite params).decrypt b keys .exact).value = .error .decryption) := by
  obtain ⟨r, rfl⟩ := exists_run h
  have hfit := r.keysFit_of_agrees hagree
  rw [← r.bundle_withPrivateKeys hfit, ← defect?_bundle_iff_recoverable (r.withPrivateKeys hfit)]
  constructor
  · intro hform
    have hreveal : (Engine.new suite params).reveal ((r.withPrivateKeys hfit).recorded none) keys
        .exact = .ok plaintext := (r.withPrivateKeys hfit).reveal hagree rfl hform (.inr rfl)
    exact decrypt_eq_ok_iff.mpr hreveal
  · intro hdefect
    refine decrypt_eq_error_iff.mpr ?_
    intro text hreveal
    obtain ⟨-, hform, -⟩ := reveal_eq_ok_iff.mp hreveal
    exact hdefect hform

/-! ## A sample -/

/-- The public keys of the sample encrypt the text of the sample, whatever the parameters and the
salt of the passphrase are. -/
theorem exists_encrypt_publicOnly_sample (mode : KeyMode) (params : Params)
    (passphraseSalt : Option Bytes) : ∃ b s',
      ((Engine.new (sampleSuite "current" mode) params).encrypt sampleText
        { sampleKeys with passphraseSalt := passphraseSalt }.publicOnly sampleStream).value
          = (.ok b, s') := by
  have hkeys : { sampleKeys with passphraseSalt := passphraseSalt }.publicOnly.problem?
      (sampleSuite "current" mode) = none := by
    rw [KeyMaterial.problem?_eq_none_iff]
    refine ⟨X25519.length_publicKey _, Kem.length_kyberPublicKey _, ?_, ?_⟩
    · intro key hkey
      cases hkey
    · intro key hkey
      cases hkey
  have hplaintext : sampleText ≠ [] := by decide
  obtain ⟨run⟩ := Engine.nonempty_run (e := .new (sampleSuite "current" mode) params) hplaintext
    hkeys (transport_sample (s := sampleStream) rfl) rfl rfl
  exact ⟨run.bundle, _, Prod.ext (encrypt_of_run run) rfl⟩

/-- With both salts the text of the sample comes back; without either of them it is lost, unless a
suite with a key file needs none for the passphrase. -/
theorem decrypt_of_encrypt_publicOnly_sample :
    (∃ b s', ((Engine.new (sampleSuite "current" .passphrase) sampleParams).encrypt sampleText
        sampleKeys.publicOnly sampleStream).value = (.ok b, s') ∧
      ((Engine.new (sampleSuite "current" .passphrase) sampleParams).decrypt b sampleKeys
        .exact).value = .ok sampleText) ∧
    (∃ b s', ((Engine.new (sampleSuite "current" .keyFile) sampleParams).encrypt sampleText
        { sampleKeys with passphraseSalt := none }.publicOnly sampleStream).value = (.ok b, s') ∧
      ((Engine.new (sampleSuite "current" .keyFile) sampleParams).decrypt b
        { sampleKeys with passphraseSalt := none } .exact).value = .ok sampleText) ∧
    (∃ b s', ((Engine.new (sampleSuite "current" .passphrase) sampleParams).encrypt sampleText
        { sampleKeys with passphraseSalt := none }.publicOnly sampleStream).value = (.ok b, s') ∧
      ((Engine.new (sampleSuite "current" .passphrase) sampleParams).decrypt b
        { sampleKeys with passphraseSalt := none } .exact).value = .error .decryption) ∧
    ∃ b s', ((Engine.new (sampleSuite "current" .keyFile)
        { sampleParams with saltLength := 0 }).encrypt sampleText sampleKeys.publicOnly
          sampleStream).value = (.ok b, s') ∧
      ((Engine.new (sampleSuite "current" .keyFile) { sampleParams with saltLength := 0 }).decrypt b
        sampleKeys .exact).value = .error .decryption := by
  have hagree (mode : KeyMode) (passphraseSalt : Option Bytes) :
      { sampleKeys with passphraseSalt := passphraseSalt }.Agrees (sampleSuite "current" mode)
        sampleStream := agrees_sample "current" mode rfl
  refine ⟨?_, ?_, ?_, ?_⟩
  · obtain ⟨b, s', h⟩ := exists_encrypt_publicOnly_sample .passphrase sampleParams
      (some (Bytes.zeros 16))
    have hsalt : Recoverable (sampleSuite "current" .passphrase) sampleParams sampleKeys :=
      ⟨by decide, .inr ⟨Bytes.zeros 16, rfl, by decide⟩⟩
    exact ⟨b, s', h, (decrypt_of_encrypt_publicOnly (hagree _ _) h).1 hsalt⟩
  · obtain ⟨b, s', h⟩ := exists_encrypt_publicOnly_sample .keyFile sampleParams none
    exact ⟨b, s', h, (decrypt_of_encrypt_publicOnly (hagree _ _) h).1 ⟨by decide, .inl rfl⟩⟩
  · obtain ⟨b, s', h⟩ := exists_encrypt_publicOnly_sample .passphrase sampleParams none
    refine ⟨b, s', h, (decrypt_of_encrypt_publicOnly (hagree _ _) h).2 ?_⟩
    rintro ⟨-, hmode | ⟨salt, hsalt, -⟩⟩
    · cases hmode
    · cases hsalt
  · obtain ⟨b, s', h⟩ := exists_encrypt_publicOnly_sample .keyFile
      { sampleParams with saltLength := 0 } (some (Bytes.zeros 16))
    refine ⟨b, s', h, (decrypt_of_encrypt_publicOnly (hagree _ _) h).2 ?_⟩
    rintro ⟨hpos, -⟩
    exact absurd hpos (by decide)

end Engine

end AgileSeal
