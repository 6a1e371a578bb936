import AgileSeal.Proofs.Bundle.Framing
import AgileSeal.Proofs.Engine.Tampering

set_option autoImplicit false

/-! # Labels

The label of a bundle, the id of a suite in its header, is looked at where it has to match, and
nowhere else: an engine that insists on the label is one that does not, guarded by the label
(`Engine.decrypt_exact`).

The label is also part of the associated data. Nothing else on the way to the text depends on it
(`Engine.keyOf_relabelled`), different labels have different headers (`Bundle.associated_ne`), and a
label that cannot be written has none (`Engine.decrypt_of_unwritable`). So a bundle under another
label is rejected if the cipher tells the two headers apart (`Engine.decrypt_relabelled`).
-/

namespace AgileSeal

/-! ## Where the label has to match -/

namespace Engine

variable {e : Engine} {b : Bundle}

/-- What is said about a bundle of another suite. -/
def foreignLabel : PrimitiveError := .invalidInput "bundle belongs to another suite"

theorem checkLabel_override (e : Engine) (b : Bundle) : e.checkLabel .override b = .ok () := by
  rw [checkLabel, if_neg]
  rintro ⟨hexact, -⟩
  cases hexact

/-- Under its own label a bundle is opened as in spite of it. -/
theorem reveal_exact_of_own (h : b.suiteId = e.suite.id) (keys : KeyMaterial) :
    e.reveal b keys .exact = e.reveal b keys .override := by
  have hlabel : e.checkLabel .exact b = .ok () := by
    rw [checkLabel, if_neg]
    rintro ⟨-, hforeign⟩
    exact hforeign h
  rw [reveal, reveal, hlabel, checkLabel_override]

/-- Under a foreign label a bundle is rejected before anything else of it is looked at. -/
theorem reveal_exact_of_foreign (h : b.suiteId ≠ e.suite.id) (keys : KeyMaterial) :
    e.reveal b keys .exact = .error foreignLabel := by
  rw [reveal, checkLabel, if_pos ⟨rfl, h⟩]
  rfl

/-- **An engine that insists on the label** is one that does not, guarded by the label. -/
theorem decrypt_exact (e : Engine) (b : Bundle) (keys : KeyMaterial) :
    e.decrypt b keys .exact =
      if b.suiteId = e.suite.id then e.decrypt b keys .override
      else do
        Logged.report (e.rejected b foreignLabel)
        return .error .decryption := by
  by_cases h : b.suiteId = e.suite.id
  · rw [if_pos h, decrypt, decrypt, reveal_exact_of_own h]
  · rw [if_neg h, decrypt, reveal_exact_of_foreign h]

end Engine

/-! ## Other labels -/

namespace Bundle

/-- The bundle under another label. -/
def relabelled (b : Bundle) (label : String) : Bundle := { b with suiteId := label }

/-- Different labels have different headers. -/
theorem associated_ne {b : Bundle} {label : String} (hlabel : label ≠ b.suiteId)
    {associated associated' : Bytes} (h : b.associatedData = .ok associated)
    (h' : (b.relabelled label).associatedData = .ok associated') : associated' ≠ associated := by
  rintro rfl
  have hheader : (b.relabelled label).toHeader = b.toHeader := Header.eq_of_encode_eq h' h
  exact hlabel (congrArg Header.suiteId hheader)

end Bundle

namespace Engine

variable {e : Engine} {b : Bundle} {keys : KeyMaterial}

/-- The key of the cipher does not depend on the label. -/
theorem keyOf_relabelled (e : Engine) (b : Bundle) (keys : KeyMaterial) (label : String) :
    e.keyOf (b.relabelled label) keys = e.keyOf b keys := rfl

/-- A bundle whose header cannot be written is never opened. -/
theorem decrypt_of_unwritable {problem : Error} (h : b.associatedData = .error problem)
    (keys : KeyMaterial) (m : LabelMatch) : (e.decrypt b keys m).value = .error .decryption := by
  rw [decrypt_eq_error_iff]
  intro plaintext hreveal
  obtain ⟨-, -, -, key, associated, -, hassociated, -⟩ := reveal_eq_ok_iff.mp hreveal
  rw [h] at hassociated
  cases hassociated

namespace Run

variable {plaintext : Bytes} {s s' : RandomStream}

/-- The cipher rejects what a run has sealed under these associated data, unless they are the sealed
ones. No cipher does so for all byte strings at once: there are more of them than tags. -/
def Rejects (r : Run e plaintext keys s) (associated : Bytes) : Prop :=
  associated ≠ r.associated →
    e.suite.symmetric.cipher.decrypt r.key r.bundle.nonce r.ciphertext r.tag associated = none

end Run

/-- **Relabelling fails closed.** A bundle under a label other than its own, be it empty, too long
or that of another suite, is rejected by the keys that open it, whether the label has to match or
not, if the cipher rejects the header of this label in place of the sealed one. -/
theorem decrypt_relabelled {plaintext : Bytes} {s s' : RandomStream}
    (hagree : keys.Agrees e.suite s) (h : (e.encrypt plaintext keys s).value = (.ok b, s'))
    {label : String} (hlabel : label ≠ b.suiteId)
    (hcipher : ∀ run : e.Run plaintext keys s, run.bundle = b →
      ∀ associated, (b.relabelled label).associatedData = .ok associated → run.Rejects associated)
    (m : LabelMatch) : (e.decrypt (b.relabelled label) keys m).value = .error .decryption := by
  obtain ⟨run, rfl⟩ := exists_run h
  cases hheader : (run.bundle.relabelled label).associatedData with
  | error problem => exact decrypt_of_unwritable hheader keys m
  | ok associated =>
      have hother : associated ≠ run.associated :=
        Bundle.associated_ne hlabel run.header hheader
      have hnone := hcipher run rfl associated hheader hother
      rw [decrypt_eq_error_iff]
      intro text hreveal
      obtain ⟨-, -, -, key, associated', hkey, hassociated, hopens⟩ := reveal_eq_ok_iff.mp hreveal
      rw [hheader] at hassociated
      cases hassociated
      rw [keyOf_relabelled] at hkey
      cases (run.keyOf_recorded hagree none rfl).symm.trans hkey
      obtain ⟨-, -, hsome⟩ := SymmetricCipher.decrypt_eq_ok_iff.mp hopens
      have hclash : none = some text := hnone.symm.trans hsome
      cases hclash

end Engine

/-! ## A sample -/

/-- The key that the sample derives from both secrets and a salt of zeros. -/
def sampleCipherKey : Bytes := [204, 122, 195, 161, 150, 84, 106, 233, 144, 15, 55, 13, 218, 33, 198,
  79, 160, 69, 193, 105, 75, 132, 194, 113, 236, 152, 86, 57, 118, 112, 219, 187]

namespace Engine

theorem nonempty_run_sample : Nonempty (sampleEngine.Run sampleText sampleKeys sampleStream) := by
  have hplaintext : sampleText ≠ [] := by decide
  exact nonempty_run (e := sampleEngine) (s := sampleStream) hplaintext
    (KeyMaterial.problem?_ofStretched (expand_sample "current")) (transport_sample rfl) rfl rfl

/-- What the lattice scheme transports in the sample. -/
theorem transport_pqc_sample {s : RandomStream} (hs : s.byteAt = fun _ => 0)
    (r : sampleEngine.Run sampleText sampleKeys s) : r.pqcSecret = samplePqcSecret := by
  have hsecret : (Kyber.encapsulate (Kyber.publicKey samplePqcKey) (Bytes.zeros 32)).2.toList
      = samplePqcSecret := by
    rw [Kyber.toList_encapsulate, survives_sample.2]
  have hrun := r.pqc
  rw [segment_of_zeros hs] at hrun
  have hpair : ((Kyber.encapsulate sampleKeys.pqcPublicKey (Bytes.zeros 32)).1,
      (Kyber.encapsulate sampleKeys.pqcPublicKey (Bytes.zeros 32)).2.toList)
        = (r.encapsulated, r.pqcSecret) := Except.ok.inj hrun
  have hpublic : sampleKeys.pqcPublicKey = Kyber.publicKey samplePqcKey := by
    rw [← stream_sample]
    rfl
  rw [hpublic] at hpair
  exact (Prod.mk.inj hpair).2.symm.trans hsecret

/-- The key of the sample. -/
theorem key_sample {s : RandomStream} (hs : s.byteAt = fun _ => 0)
    (r : sampleEngine.Run sampleText sampleKeys s) : r.key = sampleCipherKey := by
  have hclassical : r.classicalSecret = sampleClassicalSecret :=
    (Prod.mk.inj (Except.ok.inj (r.classical.symm.trans (transport_sample hs)))).2
  have hderive : sha256.hkdf (sampleClassicalSecret ++ samplePqcSecret) (Bytes.zeros 16)
      (Text.utf8 cipherKeyContext) 32 = some sampleCipherKey := by
    decide +kernel
  have hkey : sampleEngine.cipherKey sampleClassicalSecret samplePqcSecret (some (Bytes.zeros 16))
      = .ok sampleCipherKey := KeyDerivation.derive_of_hkdf hderive
  have hderived := r.derived
  rw [hclassical, transport_pqc_sample hs, freshSalt, segment_of_zeros hs] at hderived
  exact Except.ok.inj (hderived.symm.trans hkey)

/-- The cipher of the sample rejects the header of the suite `archive`. -/
theorem rejects_sample (r : sampleEngine.Run sampleText sampleKeys sampleStream)
    {associated : Bytes} (h : (Header.ofSuite "archive").encode = .ok associated) :
    r.Rejects associated := by
  have hown : r.associated = [0x41, 0x47, 0x4c, 0x43, 1, 0, 7, 99, 117, 114, 114, 101, 110, 116] :=
    (Except.ok.inj r.header).symm
  have hother : associated = [0x41, 0x47, 0x4c, 0x43, 1, 0, 7, 97, 114, 99, 104, 105, 118, 101] :=
    (Except.ok.inj h).symm
  have hnonce : r.bundle.nonce = Bytes.zeros 12 := segment_of_zeros rfl _ _
  have hsealed := (SymmetricCipher.cipher_of_encrypt r.sealed).2
  have hnone : ∀ sealed ∈ DetachedCipher.chacha20Poly1305.encrypt sampleCipherKey (Bytes.zeros 12)
      sampleText [0x41, 0x47, 0x4c, 0x43, 1, 0, 7, 99, 117, 114, 114, 101, 110, 116],
      DetachedCipher.chacha20Poly1305.decrypt sampleCipherKey (Bytes.zeros 12) sealed.1 sealed.2
        [0x41, 0x47, 0x4c, 0x43, 1, 0, 7, 97, 114, 99, 104, 105, 118, 101] = none := by
    decide +kernel
  intro _
  rw [key_sample rfl r, hown] at hsealed
  rw [key_sample rfl r, hnonce, hother]
  exact hnone (r.ciphertext, r.tag) (hnonce ▸ hsealed)

/-- The sample opens its bundle under the label `current`, but neither under that of another suite
nor under the empty one. -/
theorem decrypt_relabelled_sample : ∃ b s',
    (sampleEngine.encrypt sampleText sampleKeys sampleStream).value = (.ok b, s') ∧
      (sampleEngine.decrypt b sampleKeys .exact).value = .ok sampleText ∧
      b.suiteId = "current" ∧
      (∀ m, (sampleEngine.decrypt (b.relabelled "archive") sampleKeys m).value
        = .error .decryption) ∧
      ∀ m, (sampleEngine.decrypt (b.relabelled "") sampleKeys m).value = .error .decryption := by
  obtain ⟨run⟩ := nonempty_run_sample
  have hagree : sampleKeys.Agrees sampleEngine.suite sampleStream :=
    agrees_sample "current" .passphrase rfl
  have hencrypt : (sampleEngine.encrypt sampleText sampleKeys sampleStream).value
      = (.ok run.bundle, (sampleEngine.encrypt sampleText sampleKeys sampleStream).value.2) :=
    Prod.ext (encrypt_of_run run) rfl
  have hform : (run.recorded none).defect? (sampleEngine.suite.relabelled "current") = none :=
    run.defect?_recorded (by decide) rfl rfl "current"
  have hopen : sampleEngine.reveal run.bundle sampleKeys .exact = .ok sampleText :=
    run.reveal hagree rfl hform (.inr rfl)
  have hlabel : run.bundle.suiteId = "current" := rfl
  refine ⟨run.bundle, _, hencrypt, decrypt_eq_ok_iff.mpr hopen, hlabel, ?_, ?_⟩
  · refine decrypt_relabelled hagree hencrypt (hlabel ▸ by decide) ?_
    intro r _ associated hassociated
    exact rejects_sample r hassociated
  · refine decrypt_relabelled hagree hencrypt (hlabel ▸ by decide) ?_
    intro r _ associated hassociated
    cases hassociated

end Engine

end AgileSeal
