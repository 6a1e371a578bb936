import AgileSeal.Proofs.Engine.Failures
import AgileSeal.Proofs.Service.Arguments

set_option autoImplicit false

/-! # When an encryption with a passphrase fails

A service whose active suite takes passphrases refuses credentials of the wrong kind and the empty
passphrase, then the empty text. What is left is found out on the way (`Handler.Obstacle`):
Diffie-Hellman may give a secret of zeros, the text may be longer than the cipher allows, and the
bundle longer than can be written. Everything else that is checked on the way has been settled when
the configuration was checked (`Service.encrypt_failures`).
-/

namespace AgileSeal

/-- Behind a header that fits, a bundle is written or too long. -/
theorem Bundle.encode_cases {b : Bundle} {head : Bytes} (hheader : b.toHeader.encode = .ok head) :
    (∃ blob, b.encode = .ok blob) ∨
      Body.maxLength < b.toBody.encode.length ∧ b.encode = .error tooLong := by
  rw [encode, hheader]
  simp only
  split
  · rename_i hlong
    exact .inr ⟨hlong, rfl⟩
  · exact .inl ⟨_, rfl⟩

namespace Handler

variable {suite : SuiteDefinition} {params : Params} {text : String} {plaintext : Bytes}

/-- What may still keep a suite from encrypting a text with a passphrase, and what is said then. -/
inductive Obstacle (suite : SuiteDefinition) (params : Params) (text : String) (plaintext : Bytes)
    (s : RandomStream) : String → Prop
  /-- The derived key and the bytes drawn after the salt give a secret of zeros. -/
  | nonContributory (keys : KeyMaterial)
      (derived : KeyMaterial.ofPassphrase suite params text (s.draw params.saltLength.toNat).1
        = .ok keys)
      (zero : X25519.multiply ((s.draw params.saltLength.toNat).2.draw seedLength).1
        keys.classicalPublicKey = Bytes.zeros 32) :
      Obstacle suite params text plaintext s
        (PrimitiveError.encapsulation Kem.nonContributory).message
  /-- The text is longer than the cipher allows. -/
  | longText (long : suite.symmetric.TooLong plaintext) :
      Obstacle suite params text plaintext s
        (PrimitiveError.encryption SymmetricCipher.cipherFailure).message
  /-- The text is encrypted, but the body of the bundle is too long. -/
  | longBody (x : Sealed suite params text plaintext s)
      (long : Body.maxLength < x.bundle.toBody.encode.length) :
      Obstacle suite params text plaintext s
        (PrimitiveError.serialization Bundle.sizeProblem).message

/-- A suite has keys for every passphrase that is not empty. -/
theorem exists_keys (hvalid : params.validate = .ok ()) (hsalt : params.saltLength.toNat < 2 ^ 32)
    (htext : text ≠ "") (hlong : (Text.utf8 text).length < 2 ^ 32) (suite : SuiteDefinition)
    (s : RandomStream) : ∃ stretched keys,
      stretchPassphrase text (s.draw params.saltLength.toNat).1
        (.ofParams suite.passphraseKdf params) = .ok stretched ∧
      KeyMaterial.ofStretched suite stretched (s.draw params.saltLength.toNat).1 = .ok keys := by
  have hlength : (s.draw params.saltLength.toNat).1.length = params.saltLength.toNat := by
    rw [RandomStream.draw_fst, RandomStream.length_segment]
  obtain ⟨stretched, hstretch⟩ :=
    exists_stretchPassphrase hvalid suite.passphraseKdf htext hlong hlength hsalt
  obtain ⟨keys, hexpand⟩ := KeyMaterial.exists_ofStretched suite stretched _
  exact ⟨stretched, keys, hstretch, hexpand⟩

/-- With keys for the passphrase a text that is not empty is sealed, or there is an obstacle. -/
theorem sealed_or_obstacle (hmode : suite.mode = .passphrase) {s : RandomStream}
    {stretched : Bytes} {keys : KeyMaterial}
    (hstretch : stretchPassphrase text (s.draw params.saltLength.toNat).1
      (.ofParams suite.passphraseKdf params) = .ok stretched)
    (hexpand : KeyMaterial.ofStretched suite stretched (s.draw params.saltLength.toNat).1
      = .ok keys) {associated : Bytes} (hheader : (Header.ofSuite suite.id).encode = .ok associated)
    (hplaintext : plaintext ≠ []) (files : FileSystem) :
    Nonempty (Sealed suite params text plaintext s) ∨
      ∃ detail, Obstacle suite params text plaintext s detail ∧
        ((Handler.new suite params).encrypt files plaintext (.passphrase text) s).value.1
          = .error (.encryptionFailed detail) := by
  have hkeys := KeyMaterial.problem?_ofStretched hexpand
  have hderived : KeyMaterial.ofPassphrase suite params text (s.draw params.saltLength.toNat).1
      = .ok keys := bind_eq_ok_iff.mpr ⟨stretched, hstretch, hexpand⟩
  rw [result_encrypt_of_keys hmode hstretch hexpand]
  rcases Engine.encrypt_cases (e := .new suite params) (s.draw params.saltLength.toNat).2 hplaintext
    hkeys hheader with ⟨⟨run⟩⟩ | ⟨hzero, hfails⟩ | ⟨hlong, hfails⟩
  · exact .inl ⟨⟨stretched, keys, hmode, hstretch, hexpand, run⟩⟩
  · refine .inr ⟨_, .nonContributory keys hderived ?_, ?_⟩
    · rw [RandomStream.draw_fst]
      exact hzero
    · rw [hfails]
      rfl
  · refine .inr ⟨_, .longText hlong, ?_⟩
    rw [hfails]
    rfl

end Handler

namespace Service

variable {σ : Type} {c : Config} {w : World σ} {suite : SuiteDefinition}

/-! ## Refusals -/

/-- A suite with a passphrase does not look into key files. -/
theorem encrypt_keyFile (hw : w.registry.Follows c) (hactive : c.suite? c.active = some suite)
    (hmode : suite.mode = .passphrase) (plaintext : Bytes) (path : String) :
    ∃ detail, (encrypt plaintext (.keyFile path) w).value.1 = .error (.keyManagement detail) := by
  rw [result_encrypt hw hactive, Handler.new_of_passphrase hmode]
  exact ⟨_, rfl⟩

/-- The empty passphrase is refused before the text is looked at. -/
theorem encrypt_emptyPassphrase (hw : w.registry.Follows c)
    (hactive : c.suite? c.active = some suite) (hmode : suite.mode = .passphrase)
    (plaintext : Bytes) : ∃ detail, (encrypt plaintext (.passphrase "") w).value.1
      = .error (.keyManagement detail) := by
  rw [result_encrypt hw hactive, Handler.new_of_passphrase hmode]
  exact ⟨_, rfl⟩

variable {text : String}

/-- With keys for the passphrase the empty text is refused. -/
theorem encrypt_emptyText (hw : w.registry.Follows c) (hactive : c.suite? c.active = some suite)
    (hmode : suite.mode = .passphrase) (hsalt : c.params.saltLength.toNat < 2 ^ 32)
    (htext : text ≠ "") (hlong : (Text.utf8 text).length < 2 ^ 32) :
    ∃ detail, (encrypt [] (.passphrase text) w).value.1 = .error (.invalidArgument detail) := by
  obtain ⟨stretched, keys, hstretch, hexpand⟩ := Handler.exists_keys
    (Config.params_validate hw.valid) hsalt htext hlong suite w.random
  rw [result_encrypt hw hactive, Handler.result_encrypt_of_keys hmode hstretch hexpand,
    Engine.encrypt_nil]
  exact ⟨_, rfl⟩

/-- With keys for the passphrase any other text is encrypted and written, or there is an
obstacle. -/
theorem encrypt_or_obstacle (hw : w.registry.Follows c) (hactive : c.suite? c.active = some suite)
    (hmode : suite.mode = .passphrase) (hsalt : c.params.saltLength.toNat < 2 ^ 32)
    (htext : text ≠ "") (hlong : (Text.utf8 text).length < 2 ^ 32) {plaintext : Bytes}
    (hplaintext : plaintext ≠ []) :
    (∃ blob, (encrypt plaintext (.passphrase text) w).value.1 = .ok blob) ∨
      ∃ detail, Handler.Obstacle suite c.params text plaintext w.random detail ∧
        (encrypt plaintext (.passphrase text) w).value.1 = .error (.encryptionFailed detail) := by
  obtain ⟨stretched, keys, hstretch, hexpand⟩ := Handler.exists_keys
    (Config.params_validate hw.valid) hsalt htext hlong suite w.random
  obtain ⟨associated, hheader⟩ := Config.exists_encode_of_suite? hactive
  rw [result_encrypt hw hactive]
  rcases Handler.sealed_or_obstacle hmode hstretch hexpand hheader hplaintext w.files with
    ⟨⟨x⟩⟩ | ⟨detail, hobstacle, hfails⟩
  · rw [Handler.encrypt_of_sealed x]
    rcases Bundle.encode_cases (b := x.bundle) hheader with ⟨blob, hblob⟩ | ⟨hbody, hfails⟩
    · exact .inl ⟨blob, hblob⟩
    · exact .inr ⟨_, .longBody x hbody, hfails⟩
  · rw [hfails]
    exact .inr ⟨detail, hobstacle, rfl⟩

/-! ## All failures -/

/-- **When an encryption with a passphrase fails.** A service whose active suite takes passphrases
complains about the keys exactly for a key file and for the empty passphrase, otherwise about its
arguments exactly for the empty text, and otherwise it encrypts unless there is an obstacle. -/
theorem encrypt_failures (hw : Registry.Built c w.registry)
    (hactive : c.suite? c.active = some suite) (hmode : suite.mode = .passphrase)
    (hsalt : c.params.saltLength.toNat < 2 ^ 32) (plaintext : Bytes) {credentials : Credentials}
    (hlong : ∀ text, credentials = .passphrase text → (Text.utf8 text).length < 2 ^ 32) :
    ((∃ detail, (encrypt plaintext credentials w).value.1 = .error (.keyManagement detail)) ↔
      (∃ path, credentials = .keyFile path) ∨ credentials = .passphrase "") ∧
    ∀ text, credentials = .passphrase text → text ≠ "" →
      ((∃ detail, (encrypt plaintext credentials w).value.1 = .error (.invalidArgument detail)) ↔
        plaintext = []) ∧
      (plaintext ≠ [] → (∃ blob, (encrypt plaintext credentials w).value.1 = .ok blob) ∨
        ∃ detail, Handler.Obstacle suite c.params text plaintext w.random detail ∧
          (encrypt plaintext credentials w).value.1 = .error (.encryptionFailed detail)) := by
  -- the cases are in the order in which the service notices them
  cases credentials with
  | keyFile path =>
      refine ⟨iff_of_true (encrypt_keyFile hw.follows hactive hmode plaintext path)
        (.inl ⟨path, rfl⟩), ?_⟩
      intro text heq
      cases heq
  | passphrase text =>
      by_cases htext : text = ""
      · rw [htext]
        refine ⟨iff_of_true (encrypt_emptyPassphrase hw.follows hactive hmode plaintext)
          (.inr rfl), ?_⟩
        intro text' heq hne
        cases heq
        exact absurd rfl hne
      · have hgood : ¬((∃ path, Credentials.passphrase text = .keyFile path) ∨
            Credentials.passphrase text = .passphrase "") := by
          rintro (⟨path, heq⟩ | heq)
          · cases heq
          · exact htext (Credentials.passphrase.inj heq)
        have hshort := hlong text rfl
        by_cases hplaintext : plaintext = []
        · rw [hplaintext]
          obtain ⟨detail, hfails⟩ := encrypt_emptyText hw.follows hactive hmode hsalt htext hshort
          rw [hfails]
          refine ⟨iff_of_false ?_ hgood, ?_⟩
          · rintro ⟨_, heq⟩
            cases heq
          · intro text' _ _
            exact ⟨iff_of_true ⟨detail, rfl⟩ rfl, fun hne => absurd rfl hne⟩
        · have hcases := encrypt_or_obstacle hw.follows hactive hmode hsalt htext hshort hplaintext
          -- past these checks there is only one kind of failure left
          have honly : FailsOnly (encrypt plaintext (.passphrase text) w).value.1
              fun e => ∃ detail, e = .encryptionFailed detail := by
            rcases hcases with ⟨blob, hok⟩ | ⟨detail, -, hfails⟩
            · rw [hok]
              exact .ok blob
            · rw [hfails]
              exact .error ⟨detail, rfl⟩
          refine ⟨iff_of_false ?_ hgood, ?_⟩
          · rintro ⟨_, hfails⟩
            obtain ⟨_, hkind⟩ := honly _ hfails
            cases hkind
          · intro text' heq _
            cases heq
            refine ⟨iff_of_false ?_ hplaintext, fun _ => hcases⟩
            rintro ⟨_, hfails⟩
            obtain ⟨_, hkind⟩ := honly _ hfails
            cases hkind

/-- The writer of the sample refuses a key file, the empty passphrase and the empty text. -/
theorem encrypt_failures_current : ∃ w : World Unit,
    Registry.Built (sampleWriter "current") w.registry ∧
    (∃ detail, (encrypt sampleText (.keyFile "keys.json") w).value.1
      = .error (.keyManagement detail)) ∧
    (∃ detail, (encrypt [] (.passphrase "") w).value.1 = .error (.keyManagement detail)) ∧
    (∃ detail, (encrypt [] (.passphrase "pw") w).value.1 = .error (.invalidArgument detail)) ∧
    ∃ blob, (encrypt sampleText (.passphrase "pw") w).value.1 = .ok blob := by
  have hactive : (sampleWriter "current").suite? (sampleWriter "current").active
      = some (sampleSuite "current" .passphrase) := rfl
  have hsalt : (sampleWriter "current").params.saltLength.toNat < 2 ^ 32 := by decide
  obtain ⟨w, blob, hw, -, hblob, -⟩ := exists_encrypt_sample rfl hactive rfl
  have hshort {known : String} (hknown : (Text.utf8 known).length < 2 ^ 32) :
      ∀ text, Credentials.passphrase known = .passphrase text →
        (Text.utf8 text).length < 2 ^ 32 := by
    intro text heq
    cases heq
    exact hknown
  have hfile : ∀ text, Credentials.keyFile "keys.json" = .passphrase text →
      (Text.utf8 text).length < 2 ^ 32 := by
    intro text heq
    cases heq
  refine ⟨w, hw, ?_, ?_, ?_, blob, hblob⟩
  · exact (encrypt_failures hw hactive rfl hsalt sampleText hfile).1.mpr (.inl ⟨_, rfl⟩)
  · exact (encrypt_failures hw hactive rfl hsalt [] (hshort (by decide))).1.mpr (.inr rfl)
  · exact ((encrypt_failures hw hactive rfl hsalt [] (hshort (by decide))).2 "pw" rfl
      (by decide)).1.mpr rfl

end Service

end AgileSeal
