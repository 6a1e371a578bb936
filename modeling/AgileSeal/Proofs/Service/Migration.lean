import AgileSeal.Proofs.Service.Arguments
import AgileSeal.Proofs.Service.Errors
import AgileSeal.Proofs.Service.Opening

set_option autoImplicit false

/-! # Migration

A text moves from service to service: the first one encrypts it, each later one decrypts what the
one before has made and encrypts it with its own active suite (`Migration.Runs`). Nothing is lost on
the way: at each step the blob is an encryption of the original text
(`Migration.Runs.exists_encrypt`), so it has the label and the cost of the service that made it, and
every service that lists its suite gives the text back (`Service.migration_preserves`).

Moving a bundle fails as decrypting it fails. It never fails for an empty text, because a decrypted
text is as long as the ciphertext of its bundle, which has the form of a suite
(`Service.exists_bundle_of_decrypt`).
-/

namespace AgileSeal

namespace Service

variable {σ τ : Type}

/-! ## Decryption in a service -/

/-- Decrypting changes nothing but the handlers that the registry keeps. -/
theorem value_decrypt {c : Config} {w : World σ} (hw : w.registry.Follows c) (blob : Bytes)
    (credentials : Credentials) : ∃ r : Registry σ, (decrypt blob credentials w).value
      = ((decrypt blob credentials w).value.1, { w with registry := r }) ∧ r.Follows c := by
  obtain ⟨cache, r, hsearch, hfollows⟩ := search_spec hw blob credentials
  refine ⟨r, ?_, hfollows⟩
  rw [decrypt, Stateful.value_bind_ok hsearch]
  rfl

/-- What is decrypted is as long as the ciphertext of its bundle and not empty: the attempt that
succeeds has found a bundle of the form of its suite. -/
theorem exists_bundle_of_decrypt {c : Config} {w : World σ} (hw : w.registry.Follows c)
    {blob : Bytes} {credentials : Credentials} {payload : Payload}
    (h : (decrypt blob credentials w).value.1 = .ok payload) :
    ∃ b, Bundle.decode blob = .ok b ∧ payload.plaintext ≠ [] ∧
      payload.plaintext.length = b.ciphertext.length := by
  obtain ⟨handler, -, -, b, label, hparse, hanswer⟩ := exists_answer_of_decrypt hw h
  obtain ⟨hdecode, -⟩ := Handler.parse_eq_ok_iff.mp hparse
  obtain ⟨-, keys, -, hreveal⟩ := Handler.answer_eq_ok_iff.mp hanswer
  exact ⟨b, hdecode, Engine.length_of_reveal hreveal⟩

/-- Moving a bundle is decrypting it and encrypting the text in the same service. -/
theorem value_reencrypt {c : Config} {w : World σ} (hw : w.registry.Follows c) (blob : Bytes)
    (old new : Credentials) : ∃ r : Registry σ, r.Follows c ∧
      (reencrypt blob old new w).value.1 =
        match (decrypt blob old w).value.1 with
        | .error e => .error e
        | .ok payload => (encrypt payload.plaintext new { w with registry := r }).value.1 := by
  obtain ⟨r, hdecrypt, hfollows⟩ := value_decrypt hw blob old
  refine ⟨r, hfollows, ?_⟩
  rw [reencrypt, Stateful.value_bind, hdecrypt]
  cases (decrypt blob old w).value.1 with
  | error e => rfl
  | ok payload =>
      show ((encrypt payload.plaintext new >>= _) { w with registry := r }).value.1
        = (encrypt payload.plaintext new { w with registry := r }).value.1
      rw [Stateful.value_bind]
      rcases (encrypt payload.plaintext new { w with registry := r }).value with ⟨result, w'⟩
      cases result <;> rfl

end Service

/-! ## Chains -/

/-- A chain of services: the configuration of each, the world in which it works, the credentials
with which it encrypts and the blob that it makes. -/
structure Migration (σ : Type) where
  config : Nat → Config
  world : Nat → World σ
  credentials : Nat → Credentials
  blob : Nat → Bytes

namespace Migration

variable {σ : Type}

/-- The suite for new encryptions of a service of the chain. -/
def suite? (m : Migration σ) (i : Nat) : Option SuiteDefinition :=
  (m.config i).suite? (m.config i).active

/-- The chain moves a text through `n` services after the first. Each service describes the suite
of the one before in the same way and has it in its order, finds the key file of the one before as
it was, and holds keys on which the key encapsulations agree. -/
structure Runs (m : Migration σ) (n : Nat) (plaintext : Bytes) : Prop where
  built : ∀ i ≤ n, Registry.Built (m.config i) (m.world i).registry
  first : (Service.encrypt plaintext (m.credentials 0) (m.world 0)).value.1 = .ok (m.blob 0)
  next : ∀ i < n, (Service.reencrypt (m.blob i) (m.credentials i) (m.credentials (i + 1))
    (m.world (i + 1))).value.1 = .ok (m.blob (i + 1))
  listed : ∀ i < n, ∀ suite, m.suite? i = some suite →
    (m.config (i + 1)).suite? suite.id = some suite ∧ suite.id ∈ (m.config (i + 1)).order
  unchanged : ∀ i < n, (m.credentials i).Unchanged (m.world i).files (m.world (i + 1)).files
  agree : ∀ i ≤ n, ∀ suite, m.suite? i = some suite →
    (m.credentials i).Agree suite (m.config i).params (m.world i).files (m.world i).random

/-- The blob of a service is its encryption of the text, in the world that the service works in. -/
def Holds (m : Migration σ) (plaintext : Bytes) (i : Nat) : Prop :=
  ∃ r : Registry σ, r.Follows (m.config i) ∧
    (Service.encrypt plaintext (m.credentials i) { m.world i with registry := r }).value.1
      = .ok (m.blob i)

variable {m : Migration σ} {n : Nat} {plaintext : Bytes}

/-- One move: the service decrypts the text of the one before, so it encrypts the same text. -/
theorem Runs.step (h : m.Runs n plaintext) {i : Nat} (hi : i < n) (hholds : m.Holds plaintext i) :
    m.Holds plaintext (i + 1) := by
  obtain ⟨r, hr, hblob⟩ := hholds
  have hnext := (h.built (i + 1) hi).follows
  obtain ⟨suite, -, -, hactive, -, -⟩ := Service.exists_of_encrypt hr hblob
  obtain ⟨hsame, horder⟩ := h.listed i hi suite hactive
  let w : World σ := { m.world i with registry := r }
  have hagree : (m.credentials i).Agree suite (m.config i).params w.files w.random :=
    h.agree i (Nat.le_of_lt hi) suite hactive
  have hfiles : (m.credentials i).Unchanged w.files (m.world (i + 1)).files := h.unchanged i hi
  have hdecrypt := Service.decrypt_of_encrypt_listed (show w.registry.Follows _ from hr) hnext
    hactive hsame horder hagree hfiles hblob
  obtain ⟨r', hr', hmove⟩ := Service.value_reencrypt hnext (m.blob i) (m.credentials i)
    (m.credentials (i + 1))
  rw [h.next i hi, hdecrypt] at hmove
  exact ⟨r', hr', hmove.symm⟩

/-- The whole chain: every blob is an encryption of the text. -/
theorem Runs.holds (h : m.Runs n plaintext) {i : Nat} (hi : i ≤ n) : m.Holds plaintext i := by
  induction i with
  | zero => exact ⟨(m.world 0).registry, (h.built 0 hi).follows, h.first⟩
  | succ i ih => exact h.step hi (ih (Nat.le_of_succ_le hi))

/-- What the blob of a service says and who decrypts it. -/
theorem Runs.opens {τ : Type} (h : m.Runs n plaintext) {i : Nat} (hi : i ≤ n) :
    ∃ suite, m.suite? i = some suite ∧
      (∀ (c : Config) (w : World τ), Registry.Built c w.registry →
        c.suite? suite.id = some suite → suite.id ∈ c.order →
        (m.credentials i).Unchanged (m.world i).files w.files →
        (Service.decrypt (m.blob i) (m.credentials i) w).value.1 = .ok ⟨plaintext, suite.id⟩) ∧
      Bundle.suiteIdOf? (m.blob i) = some (m.config i).active ∧
      ∃ b, Bundle.decode (m.blob i) = .ok b ∧ (suite.mode = .passphrase →
        b.stretchCost = some (.ofParams suite.passphraseKdf (m.config i).params)) := by
  obtain ⟨r, hr, hblob⟩ := h.holds hi
  let v : World σ := { m.world i with registry := r }
  have hv : v.registry.Follows (m.config i) := hr
  obtain ⟨suite, -, -, hactive, -, -⟩ := Service.exists_of_encrypt hv hblob
  obtain ⟨b, -, -, hdecode, hlabel, -, hcost, -⟩ :=
    Service.exists_bundle_of_encrypt hv hactive hblob
  have hagree : (m.credentials i).Agree suite (m.config i).params v.files v.random :=
    h.agree i hi suite hactive
  refine ⟨suite, hactive, ?_, ?_, b, hdecode, ?_⟩
  · intro c w hw hsame horder hfiles
    exact Service.decrypt_of_encrypt_listed hv hw.follows hactive hsame horder hagree
      (show (m.credentials i).Unchanged v.files w.files from hfiles) hblob
  · rw [Bundle.suiteIdOf?_of_decode hdecode, hlabel, Config.suite?_id hactive]
  · intro hmode
    rw [hcost, Handler.recordedCost, hmode]

end Migration

namespace Service

variable {σ τ : Type}

/-- **Migration preserves the data.** If a chain of services moves a text, then every service that
has the suite of one of them in its order decrypts the blob of that one to the text with the
credentials of that one, and the blob has the label of its active suite and, with a passphrase, the
cost of its parameters. In every service, moving a bundle fails as decrypting it fails, and never
for an empty text: what is decrypted is as long as the ciphertext, which is not empty. -/
theorem migration_preserves :
    (∀ (m : Migration σ) (n : Nat) (plaintext : Bytes), m.Runs n plaintext → ∀ i ≤ n,
      ∃ suite, m.suite? i = some suite ∧
        (∀ (c : Config) (w : World τ), Registry.Built c w.registry →
          c.suite? suite.id = some suite → suite.id ∈ c.order →
          (m.credentials i).Unchanged (m.world i).files w.files →
          (decrypt (m.blob i) (m.credentials i) w).value.1 = .ok ⟨plaintext, suite.id⟩) ∧
        Bundle.suiteIdOf? (m.blob i) = some (m.config i).active ∧
        ∃ b, Bundle.decode (m.blob i) = .ok b ∧ (suite.mode = .passphrase →
          b.stretchCost = some (.ofParams suite.passphraseKdf (m.config i).params))) ∧
    (∀ (c : Config) (w : World τ), Registry.Built c w.registry →
      ∀ (blob : Bytes) (old new : Credentials),
        (∀ e, (decrypt blob old w).value.1 = .error e →
          (reencrypt blob old new w).value.1 = .error .decryptionFailed) ∧
        (∀ detail, (reencrypt blob old new w).value.1 ≠ .error (.invalidArgument detail)) ∧
        ∀ payload, (decrypt blob old w).value.1 = .ok payload →
          ∃ b, Bundle.decode blob = .ok b ∧ payload.plaintext ≠ [] ∧
            payload.plaintext.length = b.ciphertext.length) := by
  constructor
  · intro m n plaintext h i hi
    exact h.opens hi
  · intro c w hw blob old new
    obtain ⟨r, hr, hmove⟩ := value_reencrypt hw.follows blob old new
    refine ⟨?_, ?_, fun payload h => exists_bundle_of_decrypt hw.follows h⟩
    · intro e he
      rw [hmove, he, decrypt_fails_only blob old w e he]
    · intro detail
      rw [hmove]
      cases hdecrypt : (decrypt blob old w).value.1 with
      | error e =>
          rw [decrypt_fails_only blob old w e hdecrypt]
          intro heq
          cases heq
      | ok payload =>
          obtain ⟨b, -, hplaintext, -⟩ := exists_bundle_of_decrypt hw.follows hdecrypt
          let v : World τ := { w with registry := r }
          exact blameless_encrypt (show v.registry.Follows c from hr) hplaintext new detail

end Service

/-! ## A sample -/

/-- One value for the first service of a chain and one for all the others. -/
def firstThen {α : Type} (first later : α) : Nat → α
  | 0 => first
  | _ + 1 => later

namespace Service

/-- A text is moved from a service with a passphrase to one with a key file. -/
theorem exists_migration_sample : ∃ m : Migration Unit, m.Runs 1 sampleText ∧
    m.config 1 = sampleReader ∧ Registry.Built sampleReader (m.world 1).registry ∧
    m.credentials 1 = .keyFile "keys.json" := by
  have hwriter : (sampleWriter "current").suite? (sampleWriter "current").active
      = some (sampleSuite "current" .passphrase) := rfl
  have hreader : sampleReader.suite? sampleReader.active
      = some (sampleSuite "archive" .keyFile) := rfl
  have hsame : sampleReader.suite? (sampleSuite "current" .passphrase).id
      = some (sampleSuite "current" .passphrase) := rfl
  have horder : (sampleSuite "current" .passphrase).id ∈ sampleReader.order := by decide
  obtain ⟨wa, blob, ha, hrandom, hblob, -⟩ := exists_encrypt_sample rfl hwriter rfl
  obtain ⟨w₀, w₁, h₀, -, -, hload⟩ := exists_provision_sample
  let wb : World Unit := ⟨w₀.registry, (), sampleStream, w₁.files⟩
  have hb : Registry.Built sampleReader wb.registry := h₀
  have hagree : Credentials.Agree (.passphrase "pw") (sampleSuite "current" .passphrase)
      (sampleWriter "current").params wa.files wa.random := by
    rw [hrandom]
    exact kemsAgree_sample "current"
  have hagree' : Credentials.Agree (.keyFile "keys.json") (sampleSuite "archive" .keyFile)
      sampleReader.params wb.files wb.random := by
    intro keys hkeys
    cases hkeys.symm.trans hload
    exact agrees_sample "archive" .keyFile rfl
  have hfiles : Credentials.Unchanged (.passphrase "pw") wa.files wb.files := by
    intro path hpath
    cases hpath
  have hdecrypt := decrypt_of_encrypt_listed ha.follows hb.follows hwriter hsame horder hagree
    hfiles hblob
  obtain ⟨r, hr, hmove⟩ := value_reencrypt hb.follows blob (.passphrase "pw") (.keyFile "keys.json")
  obtain ⟨x⟩ : Nonempty (Handler.FileSealed (sampleSuite "archive" .keyFile) sampleReader.params
      wb.files "keys.json" sampleText wb.random) := nonempty_fileSealed_sample rfl hload
  obtain ⟨blob', hwrite⟩ := x.exists_encode (by decide)
  let wb' : World Unit := { wb with registry := r }
  have hseal : (encrypt sampleText (.keyFile "keys.json") wb').value.1 = .ok blob' :=
    encrypt_of_handler (show wb'.registry.Follows sampleReader from hr) hreader
      (Handler.encrypt_of_fileSealed x) hwrite
  rw [hdecrypt] at hmove
  have hnext := hmove.trans hseal
  let m : Migration Unit := {
    config := firstThen (sampleWriter "current") sampleReader
    world := firstThen wa wb
    credentials := firstThen (.passphrase "pw") (.keyFile "keys.json")
    blob := firstThen blob blob' }
  have hactive : m.suite? 0 = some (sampleSuite "current" .passphrase) := hwriter
  have hactive' (i : Nat) : m.suite? (i + 1) = some (sampleSuite "archive" .keyFile) := hreader
  refine ⟨m, ⟨?_, hblob, ?_, ?_, ?_, ?_⟩, rfl, hb, rfl⟩
  · intro i hi
    cases i with
    | zero => exact ha
    | succ i => exact hb
  · intro i hi
    cases Nat.lt_one_iff.mp hi
    exact hnext
  · intro i hi suite hsuite
    cases Nat.lt_one_iff.mp hi
    cases hactive.symm.trans hsuite
    exact ⟨hsame, horder⟩
  · intro i hi
    cases Nat.lt_one_iff.mp hi
    exact hfiles
  · intro i hi suite hsuite
    cases i with
    | zero =>
        cases hactive.symm.trans hsuite
        exact hagree
    | succ i =>
        cases (hactive' i).symm.trans hsuite
        exact hagree'

/-- The text of the sample is still there after it was moved; a bare header cannot be moved. -/
theorem migration_preserves_archive : ∃ (m : Migration Unit) (w : World Unit),
    m.Runs 1 sampleText ∧ Registry.Built sampleReader w.registry ∧
      (decrypt (m.blob 1) (.keyFile "keys.json") w).value.1 = .ok ⟨sampleText, "archive"⟩ ∧
      Bundle.suiteIdOf? (m.blob 1) = some "archive" ∧
      (decrypt bareHeader (.passphrase "pw") w).value.1 = .error .decryptionFailed ∧
      (reencrypt bareHeader (.passphrase "pw") (.passphrase "pw") w).value.1
        = .error .decryptionFailed := by
  obtain ⟨m, hruns, hconfig, hbuilt, hcredentials⟩ := exists_migration_sample
  obtain ⟨hchain, hmove⟩ := @migration_preserves Unit Unit
  obtain ⟨suite, hactive, hopens, hlabel, -⟩ := hchain m 1 sampleText hruns 1 (Nat.le_refl 1)
  have hsuite : suite = sampleSuite "archive" .keyFile := by
    rw [Migration.suite?, hconfig] at hactive
    exact (Option.some.inj hactive).symm
  rw [hcredentials, hsuite] at hopens
  rw [hconfig] at hlabel
  have hdecrypt := hopens sampleReader (m.world 1) hbuilt rfl (by decide) fun _ _ => rfl
  have hbare : (decrypt bareHeader (.passphrase "pw") (m.world 1)).value.1
      = .error .decryptionFailed := by
    rw [decrypt_spec hbuilt.follows, World.attempts, candidates_eq hbuilt.follows]
    rfl
  obtain ⟨hfails, -⟩ := hmove sampleReader (m.world 1) hbuilt bareHeader (.passphrase "pw")
    (.passphrase "pw")
  exact ⟨m, m.world 1, hruns, hbuilt, hdecrypt, hlabel, hbare, hfails _ hbare⟩

end Service

end AgileSeal
