import AgileSeal.Handler
import AgileSeal.Proofs.Bundle.WireFormat
import AgileSeal.Proofs.Engine.Opening

set_option autoImplicit false

/-! # How decryption fails

Engine and handler each have their own reasons to fail, and none of them gets out: an engine fails in
one way (`Engine.decrypt_fails_only`), and so does a handler, which turns its own reasons into the
same error (`Handler.decryptWith_fails_only`). What a handler does not read is malformed
(`Handler.parse_fails_only`).
-/

namespace AgileSeal

/-! ## Engines -/

namespace Engine

/-- The reason why nothing is revealed is dropped. -/
theorem decrypt_fails_only (e : Engine) (b : Bundle) (keys : KeyMaterial) (label : LabelMatch) :
    FailsOnly (e.decrypt b keys label).value (· = .decryption) := by
  rw [value_decrypt]
  refine FailsOnly.mapError (fun reason => ?_) (e.reveal b keys label)
  rfl

end Engine

/-! ## Handlers -/

namespace Handler

/-- Whatever keeps a handler from its keys, it says what its engine says. -/
theorem decryptWith_fails_only (h : Handler) (files : FileSystem) (b : Bundle)
    (credentials : Credentials) (label : LabelMatch) (cache : StretchCache) :
    FailsOnly (h.decryptWith files b credentials label cache).value.1 (· = .decryption) := by
  unfold decryptWith
  cases h.refusal? b label with
  | some reason => exact .error rfl
  | none =>
      rcases h.keysFor files b credentials cache with ⟨keys, cache'⟩
      cases keys with
      | error reason => exact .error rfl
      | ok keys => exact h.engine.decrypt_fails_only b keys label

/-- A byte string that a handler does not read is malformed. -/
theorem parse_fails_only (h : Handler) (blob : Bytes) :
    FailsOnly (h.parse blob) fun e => ∃ detail, e = .malformedBundle detail := by
  refine FailsOnly.bind (fun e => Bundle.malformedBundle_of_decode) fun b => ?_
  refine FailsOnly.bind ?_ fun _ => .ok b
  rw [Bundle.checkFor]
  cases b.defect? h.suite with
  | none => exact .ok ()
  | some defect => exact .error ⟨defect.message, rfl⟩

end Handler

end AgileSeal
