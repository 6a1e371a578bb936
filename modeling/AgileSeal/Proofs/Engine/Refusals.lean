import AgileSeal.Proofs.Bundle.WireFormat
import AgileSeal.Proofs.Engine.Opening
import AgileSeal.Proofs.Engine.RoundTrip

set_option autoImplicit false

/-! # Why an engine turns a bundle down

The reason why a bundle is turned down is reported, so it must not tell anything of the keys. If
bundle and keys have the form of the suite, the label may be used and the private keys are there,
two things can go wrong: Diffie-Hellman refuses the secret (`Engine.NonContributory`), or the cipher
does not accept the text. In the second case the reason is a function of the bundle
(`Engine.mismatch`, `Engine.eq_mismatch_of_reveal`). If the bundle was read from bytes, nothing else
goes wrong (`Engine.Refuses`, `Engine.refuses_of_reveal`).
-/

namespace AgileSeal

namespace Engine

/-! ## Reasons -/

/-- Diffie-Hellman with the private key of key material and the ephemeral key of a bundle gives a
secret of zeros. -/
def NonContributory (e : Engine) (b : Bundle) (keys : KeyMaterial) : Prop :=
  ∃ privateKey ephemeral, keys.classicalPrivateKey = some privateKey ∧
    b.ephemeralKey = some ephemeral ∧
    e.suite.classicalKem.kem.decapsulate privateKey ephemeral
      = .error (.decapsulation Kem.nonContributory)

/-- The reason to turn a bundle down that the keys do not open. -/
def mismatch (b : Bundle) : PrimitiveError :=
  match b.associatedData with
  | .ok _ => .decryption SymmetricCipher.cipherFailure
  | .error e => .invalidInput e.message

/-- A key for the cipher is found unless private keys are missing or Diffie-Hellman refuses. -/
theorem keyOf_cases {e : Engine} {b : Bundle} {keys : KeyMaterial}
    (hform : b.defect? e.suite = none) (hkeys : keys.problem? e.suite = none) :
    (keys.hasPrivateKeys = true ∧ ∃ key, e.keyOf b keys = .ok key) ∨
    (keys.hasPrivateKeys = false ∧
      e.keyOf b keys = .error (.invalidInput "private keys are not available")) ∨
    e.NonContributory b keys ∧ e.keyOf b keys = .error (.decapsulation Kem.nonContributory) := by
  obtain ⟨hephemeral, hfields, -, -⟩ := Bundle.defect?_eq_none_iff.mp hform
  obtain ⟨point, hpoint, hpointLength⟩ := Bundle.ephemeralDefect?_eq_none_iff.mp hephemeral
  obtain ⟨hencapsulated, -⟩ := Bundle.fieldDefect?_eq_none_iff.mp hfields
  obtain ⟨-, -, hclassicalLength, hpqcLength⟩ := (KeyMaterial.problem?_eq_none_iff _ _).mp hkeys
  cases hclassical : keys.classicalPrivateKey with
  | none =>
      refine .inr (.inl ⟨?_, ?_⟩)
      · rw [KeyMaterial.hasPrivateKeys, hclassical]
        rfl
      · rw [keyOf, privateKeys, hclassical]
        rfl
  | some classical =>
      cases hpqc : keys.pqcPrivateKey with
      | none =>
          refine .inr (.inl ⟨?_, ?_⟩)
          · rw [KeyMaterial.hasPrivateKeys, hpqc, Option.isSome_none, Bool.and_false]
          · rw [keyOf, privateKeys, hclassical, hpqc]
            rfl
      | some pqc =>
          have hsecrets : privateKeys keys = .ok (classical, pqc) := by
            rw [privateKeys, hclassical, hpqc]
          have hephemeralKey : ephemeralKey b = .ok point := by rw [ephemeralKey, hpoint]
          rcases e.suite.classicalKem.exists_decapsulate (hclassicalLength classical hclassical)
            hpointLength with ⟨classicalSecret, hclassicalSecret⟩ | hrefused
          · obtain ⟨pqcSecret, hpqcSecret⟩ :=
              e.suite.pqcKem.exists_decapsulate (hpqcLength pqc hpqc) hencapsulated
            obtain ⟨key, hkey⟩ := e.exists_cipherKey classicalSecret pqcSecret b.kdfSalt
            refine .inl ⟨?_, key, keyOf_eq_ok_iff.mpr ⟨(classical, pqc), point, classicalSecret,
              pqcSecret, hsecrets, hephemeralKey, hclassicalSecret, hpqcSecret, hkey⟩⟩
            rw [KeyMaterial.hasPrivateKeys, hclassical, hpqc]
            rfl
          · refine .inr (.inr ⟨⟨classical, point, hclassical, hpoint, hrefused⟩, ?_⟩)
            rw [keyOf, hsecrets, bind_of_ok rfl, hephemeralKey]
            exact (bind_of_ok rfl _).trans (bind_eq_error_iff.mpr (.inl hrefused))

/-- Once the checks have passed, it is left to the keys and then to the cipher whether a bundle is
opened. -/
theorem reveal_eq_bind {e : Engine} {b : Bundle} {keys : KeyMaterial} {label : LabelMatch}
    (hlabel : ¬(label = .exact ∧ b.suiteId ≠ e.suite.id)) (hform : b.defect? e.suite = none)
    (hkeys : keys.problem? e.suite = none) :
    e.reveal b keys label = (e.keyOf b keys >>= fun key =>
      asInput b.associatedData >>= fun associated =>
        e.suite.symmetric.decrypt key b.nonce b.ciphertext b.tag associated) := by
  have hmatches : e.checkLabel label b = .ok () := by rw [checkLabel, if_neg hlabel]
  have hbundle := (Bundle.checkFor_eq_ok_iff _ _).mpr hform
  have hmaterial := (KeyMaterial.checkFor_eq_ok_iff _ _).mpr hkeys
  unfold reveal keyOf
  rw [hmatches, hbundle, hmaterial]
  simp only [bind_assoc]
  rfl

/-- **The reason does not tell anything of the keys**, unless Diffie-Hellman refuses. -/
theorem eq_mismatch_of_reveal {e : Engine} {b : Bundle} {keys : KeyMaterial} {label : LabelMatch}
    {reason : PrimitiveError} (hlabel : ¬(label = .exact ∧ b.suiteId ≠ e.suite.id))
    (hform : b.defect? e.suite = none) (hkeys : keys.problem? e.suite = none)
    (hprivate : keys.hasPrivateKeys = true) (hcontributory : ¬e.NonContributory b keys)
    (h : e.reveal b keys label = .error reason) : reason = mismatch b := by
  obtain ⟨-, hfields, -, -⟩ := Bundle.defect?_eq_none_iff.mp hform
  obtain ⟨-, hnonce, htag, -, -⟩ := Bundle.fieldDefect?_eq_none_iff.mp hfields
  obtain ⟨key, hkey⟩ : ∃ key, e.keyOf b keys = .ok key := by
    rcases keyOf_cases hform hkeys with ⟨-, hkey⟩ | ⟨hmissing, -⟩ | ⟨hrefused, -⟩
    · exact hkey
    · rw [hprivate] at hmissing
      cases hmissing
    · exact absurd hrefused hcontributory
  rw [reveal_eq_bind hlabel hform hkeys, bind_of_ok hkey] at h
  unfold mismatch
  rcases bind_eq_error_iff.mp h with hheader | ⟨associated, hassociated, hcipher⟩
  · obtain ⟨problem, hproblem, hreason⟩ := mapError_eq_error_iff.mp hheader
    rw [hproblem, ← hreason]
  · rw [mapError_eq_ok_iff.mp hassociated]
    exact SymmetricCipher.eq_of_decrypt (length_of_keyOf hkey) hnonce htag hcipher

/-- A decryption reports why it fails and nothing else. -/
theorem events_decrypt (e : Engine) (b : Bundle) (keys : KeyMaterial) (label : LabelMatch) :
    (e.decrypt b keys label).events = match e.reveal b keys label with
      | .ok _ => []
      | .error reason => [e.rejected b reason] := by
  unfold decrypt
  cases e.reveal b keys label <;> rfl

/-- **Two decryptions of a bundle report the same** if both succeed or both fail, unless
Diffie-Hellman refuses. -/
theorem events_decrypt_eq {e : Engine} {b : Bundle} {keys keys' : KeyMaterial} {label : LabelMatch}
    (hlabel : ¬(label = .exact ∧ b.suiteId ≠ e.suite.id)) (hform : b.defect? e.suite = none)
    (hkeys : keys.problem? e.suite = none) (hkeys' : keys'.problem? e.suite = none)
    (hprivate : keys.hasPrivateKeys = true) (hprivate' : keys'.hasPrivateKeys = true)
    (hcontributory : ¬e.NonContributory b keys) (hcontributory' : ¬e.NonContributory b keys')
    (hsame : (e.reveal b keys label).isOk = (e.reveal b keys' label).isOk) :
    (e.decrypt b keys label).events = (e.decrypt b keys' label).events := by
  rw [events_decrypt, events_decrypt]
  rcases ok_or_error_of_isOk_eq hsame with ⟨plaintext, plaintext', hopens, hopens'⟩ |
    ⟨reason, reason', hfails, hfails'⟩
  · rw [hopens, hopens']
  · rw [hfails, hfails', eq_mismatch_of_reveal hlabel hform hkeys hprivate hcontributory hfails,
      eq_mismatch_of_reveal hlabel hform hkeys' hprivate' hcontributory' hfails']

end Engine

end AgileSeal
