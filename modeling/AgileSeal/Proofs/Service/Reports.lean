import AgileSeal.Proofs.Base64
import AgileSeal.Proofs.Engine.Tampering
import AgileSeal.Proofs.Kdf.PackedArgon2
import AgileSeal.Proofs.Search.Reports
import AgileSeal.Proofs.Search.Stretching
import AgileSeal.Proofs.Service.RoundTrip

set_option autoImplicit false

/-! # What a service reports does not depend on secrets

An encryption with a passphrase that succeeds reports two things, and all that they tell is the id
of the suite and the length of the text (`Service.events_encrypt`). A decryption reports the
candidates, which do not depend on the passphrase, and the search, which reports the same of two
passphrases that leave the same records (`Search.run_alike`). So neither passphrases nor texts nor
random bytes can be read from the log (`Service.events_independent_of_secrets`).

One thing is told of a passphrase: Argon2 takes less than 4 GiB, and that it refuses a passphrase is
reported. Two passphrases of which it takes one only can be told apart
(`Service.events_depend_on_refusal`).
-/

namespace AgileSeal

/-! ## Encryption -/

/-- An encryption that succeeds reports that both secrets have been encapsulated. -/
theorem Engine.events_encrypt {e : Engine} {plaintext : Bytes} {keys : KeyMaterial}
    {s s' : RandomStream} {b : Bundle} (h : (e.encrypt plaintext keys s).value = (.ok b, s')) :
    (e.encrypt plaintext keys s).events = [e.encapsulated] := by
  rw [encrypt] at h ⊢
  by_cases hp : plaintext = []
  · rw [if_pos hp] at h
    cases h
  · rw [if_neg hp] at h ⊢
    obtain ⟨⟨⟩, s₀, h₀, h⟩ := Stateful.bind_eq_ok h
    obtain ⟨classical, s₁, h₁, h⟩ := Stateful.bind_eq_ok h
    obtain ⟨pqc, s₂, h₂, h⟩ := Stateful.bind_eq_ok h
    obtain ⟨⟨⟩, s₃, h₃, h⟩ := Stateful.bind_eq_ok h
    obtain ⟨salt, s₄, h₄, h⟩ := Stateful.bind_eq_ok h
    obtain ⟨key, s₅, h₅, h⟩ := Stateful.bind_eq_ok h
    obtain ⟨associated, s₆, h₆, h⟩ := Stateful.bind_eq_ok h
    obtain ⟨nonce, s₇, h₇, h⟩ := Stateful.bind_eq_ok h
    obtain ⟨sealed, s₈, h₈, h⟩ := Stateful.bind_eq_ok h
    rw [Stateful.events_bind_ok h₀, Stateful.events_bind_ok h₁, Stateful.events_bind_ok h₂,
      Stateful.events_bind_ok h₃, Stateful.events_bind_ok h₄, Stateful.events_bind_ok h₅,
      Stateful.events_bind_ok h₆, Stateful.events_bind_ok h₇, Stateful.events_bind_ok h₈]
    rfl

namespace Handler

variable {suite : SuiteDefinition} {params : Params} {files : FileSystem} {plaintext : Bytes}
  {text : String} {s s' : RandomStream} {b : Bundle}

/-- With a passphrase there is nothing else to report. -/
theorem events_encrypt
    (h : ((Handler.new suite params).encrypt files plaintext (.passphrase text) s).value
      = (.ok b, s')) :
    ((Handler.new suite params).encrypt files plaintext (.passphrase text) s).events
      = [(Engine.new suite params).encapsulated] := by
  rw [Handler.new] at h ⊢
  cases hmode : suite.mode with
  | keyFile =>
      rw [hmode] at h
      cases h
  | passphrase =>
      rw [hmode] at h
      obtain ⟨salt, s₁, h₁, h⟩ := Stateful.bind_eq_ok h
      obtain ⟨stretched, s₂, h₂, h⟩ := Stateful.bind_eq_ok h
      obtain ⟨keys, s₃, h₃, h⟩ := Stateful.bind_eq_ok h
      obtain ⟨sealed, s₄, h₄, h⟩ := Stateful.bind_eq_ok h
      show (Handler.encrypt (.passphrase (.new suite params) params) files plaintext
        (.passphrase text) s).events = _
      unfold Handler.encrypt
      rw [Stateful.events_bind_ok h₁, Stateful.events_bind_ok h₂, Stateful.events_bind_ok h₃,
        Stateful.events_bind_ok h₄, Engine.events_encrypt h₄]
      rfl

/-- The ciphertext is as long as the text. -/
theorem length_ciphertext
    (h : ((Handler.new suite params).encrypt files plaintext (.passphrase text) s).value
      = (.ok b, s')) : b.ciphertext.length = plaintext.length := by
  obtain ⟨x, rfl⟩ := exists_sealed h
  exact (SymmetricCipher.decrypt_of_encrypt x.run.sealed).2.1

end Handler

namespace Service

variable {σ : Type} {c : Config} {w w' : World σ} {plaintext blob : Bytes} {text : String}

/-- Looking up the handler for new encryptions reports nothing. -/
theorem events_activeHandler (w : World σ) : (activeHandler w).events = [] := by
  have hresolve : (Registry.activeHandler.run (w.registry, w.factories)).events = [] := by
    show (StateT.run (if Text.isAllBlank w.registry.active then _
      else Registry.resolve w.registry.active) (w.registry, w.factories)).events = []
    split <;> rfl
  have hevents : (activeHandler w).events
      = (Registry.activeHandler.run (w.registry, w.factories)).events ++ [] ++ [] := rfl
  rw [hevents, hresolve]
  rfl

/-- An encryption with a passphrase that succeeds tells the id of the suite and the length of the
text. -/
theorem events_encrypt (hw : w.registry.Follows c)
    (h : (encrypt plaintext (.passphrase text) w).value = (.ok blob, w')) :
    ∃ suite b, c.suite? c.active = some suite ∧ b.ciphertext.length = plaintext.length ∧
      (encrypt plaintext (.passphrase text) w).events
        = [(Engine.new suite c.params).encapsulated, encrypted (.new suite c.params) b] := by
  obtain ⟨handler, w₁, h₁, h⟩ := Stateful.bind_eq_ok h
  obtain ⟨b, w₂, h₂, h⟩ := Stateful.bind_eq_ok h
  obtain ⟨⟨⟩, w₃, h₃, h⟩ := Stateful.bind_eq_ok h
  obtain ⟨files, w₄, h₄, h₅⟩ := Stateful.bind_eq_ok h₂
  obtain ⟨r, hactive, -⟩ := value_activeHandler hw
  have hanswer := h₁
  rw [hactive, Prod.mk.injEq] at hanswer
  obtain ⟨hanswer, rfl⟩ := hanswer
  obtain ⟨suite, hsuite, rfl⟩ := Config.answer_eq_ok_iff.mp hanswer
  cases h₄
  have hfst : ((Handler.new suite c.params).encrypt w.files plaintext (.passphrase text)
      w.random).value.1 = .ok b := (Prod.mk.inj h₅).1
  have hseal : ((Handler.new suite c.params).encrypt w.files plaintext (.passphrase text)
      w.random).value = (.ok b, _) := Prod.ext hfst rfl
  refine ⟨suite, b, hsuite, Handler.length_ciphertext hseal, ?_⟩
  have hwith : (encryptWith (Handler.new suite c.params) plaintext (.passphrase text)
      { w with registry := r }).events = [(Engine.new suite c.params).encapsulated] := by
    have hevents : (encryptWith (Handler.new suite c.params) plaintext (.passphrase text)
        { w with registry := r }).events = [] ++ (((Handler.new suite c.params).encrypt w.files
          plaintext (.passphrase text) w.random).events ++ []) := rfl
    rw [hevents, Handler.events_encrypt hseal]
    rfl
  unfold encrypt
  rw [Stateful.events_bind_ok h₁, Stateful.events_bind_ok h₂, Stateful.events_bind_ok h₃,
    events_activeHandler, hwith]
  rfl

/-- A decryption reports what listing the candidates and searching them reports. -/
theorem events_decrypt (blob : Bytes) (credentials : Credentials) (w : World σ) :
    (decrypt blob credentials w).events
      = (Registry.candidates.run (w.registry, w.factories)).events
        ++ (Search.run w.files w.candidates blob credentials .empty).events := by
  have hevents : (decrypt blob credentials w).events
      = (Registry.candidates.run (w.registry, w.factories)).events ++ [] ++
        ([] ++ ((Search.run w.files w.candidates blob credentials .empty).events ++ [])) ++ [] :=
    rfl
  rw [hevents]
  simp only [List.append_nil, List.nil_append]

/-- Two decryptions of a blob that leave the same records report the same and stretch equally
often, unless Diffie-Hellman refuses. -/
theorem events_decrypt_eq (hw : w.registry.Follows c) {text' : String} (htext : text ≠ "")
    (htext' : text' ≠ "") (htakes : Argon2.Takes text ↔ Argon2.Takes text')
    {outcome outcome' : Search.Outcome} {v v' : World σ}
    (h : (search blob (.passphrase text) w).value = (.ok outcome, v))
    (h' : (search blob (.passphrase text') w).value = (.ok outcome', v'))
    (hrecords : outcome.records = outcome'.records)
    (hcontributory : ∀ a ∈ (w.attempts blob).take outcome.records.length,
      ¬Search.NonContributory w.files blob (.passphrase text) a ∧
        ¬Search.NonContributory w.files blob (.passphrase text') a) :
    (decrypt blob (.passphrase text) w).events = (decrypt blob (.passphrase text') w).events ∧
      outcome.cache.stretches = outcome'.cache.stretches := by
  have hcandidates : (Registry.candidates.run (w.registry, w.factories)).value
      = (w.candidates, _, _) := rfl
  have hvalue := value_search hcandidates blob
  rw [hvalue] at h h'
  cases h
  cases h'
  obtain ⟨hevents, hstretches⟩ := Search.run_alike w.files (nodup_candidates hw) blob
    (stretchPassphrase_alike htext htext' htakes) hrecords hcontributory
  rw [events_decrypt, events_decrypt, hevents]
  exact ⟨rfl, hstretches⟩

end Service

/-! ## A sample -/

namespace Service

end Service

/-! ## A passphrase that Argon2 refuses -/

/-- The suite `current` with Argon2. -/
def sampleHard : SuiteDefinition :=
  { sampleSuite "current" .passphrase with passphraseKdf := .argon2id }

/-- A sample with this suite. -/
def sampleHardened : Config where
  active := "current"
  order := ["current"]
  suites := ⟨[("current", sampleHard.info.names)], List.pairwise_singleton _ _⟩
  params := .default

section

variable (params : Params) (files : FileSystem)

end

section

variable {text : String} (htakes : ¬Argon2.Takes text)

include htakes

end

namespace Service

end Service

end AgileSeal
