import AgileSeal.Proofs.Handler.Errors
import AgileSeal.Service

set_option autoImplicit false

/-! # One error for every failed decryption

A search drops the reasons of all attempts that have failed, so a service fails in one way, as its
handlers and their engines do (`Service.uniform_errors`). Whoever holds a bundle cannot tell which
check it has failed.
-/

namespace AgileSeal

namespace Service

variable {σ : Type}

/-- A search has an outcome, and without a text in it there is one error. -/
theorem decrypt_fails_only (blob : Bytes) (credentials : Credentials) (w : World σ) :
    FailsOnly (decrypt blob credentials w).value.1 (· = .decryptionFailed) := by
  obtain ⟨outcome, w', hsearch⟩ : ∃ outcome w', (search blob credentials w).value
      = (.ok outcome, w') := ⟨_, _, rfl⟩
  rw [decrypt, Stateful.value_bind_ok hsearch]
  show FailsOnly outcome.result _
  rw [Search.Outcome.result]
  cases outcome.payload with
  | some payload => exact .ok payload
  | none => exact .error rfl

/-- **All failed decryptions are the same.** Whatever the bundle, the keys or credentials, the files
and the cache, an engine and a handler give a text or one error, and so does a service, whatever its
registry; what a handler does not read is malformed. -/
theorem uniform_errors :
    (∀ (e : Engine) (b : Bundle) (keys : KeyMaterial) (label : LabelMatch),
      (∃ text, (e.decrypt b keys label).value = .ok text) ∨
        (e.decrypt b keys label).value = .error .decryption) ∧
    (∀ (h : Handler) (files : FileSystem) (b : Bundle) (credentials : Credentials)
        (label : LabelMatch),
      ((∃ text, (h.decrypt files b credentials label).value = .ok text) ∨
        (h.decrypt files b credentials label).value = .error .decryption) ∧
      ∀ cache, (∃ text, (h.decryptWith files b credentials label cache).value.1 = .ok text) ∨
        (h.decryptWith files b credentials label cache).value.1 = .error .decryption) ∧
    (∀ (h : Handler) (blob : Bytes), (∃ b, h.parse blob = .ok b) ∨
      ∃ detail, h.parse blob = .error (.malformedBundle detail)) ∧
    ∀ (w : World σ) (blob : Bytes) (credentials : Credentials),
      (∃ payload, (decrypt blob credentials w).value.1 = .ok payload) ∨
        (decrypt blob credentials w).value.1 = .error .decryptionFailed := by
  refine ⟨fun e b keys label => (e.decrypt_fails_only b keys label).ok_or_only,
    fun h files b credentials label => ⟨?_, fun cache => ?_⟩, fun h blob => ?_,
    fun w blob credentials => (decrypt_fails_only blob credentials w).ok_or_only⟩
  · exact (h.decryptWith_fails_only files b credentials label .empty).ok_or_only
  · exact (h.decryptWith_fails_only files b credentials label cache).ok_or_only
  · rcases (h.parse_fails_only blob).ok_or_error with hok | ⟨_, ⟨detail, rfl⟩, herror⟩
    · exact .inl hok
    · exact .inr ⟨detail, herror⟩

end Service

end AgileSeal
