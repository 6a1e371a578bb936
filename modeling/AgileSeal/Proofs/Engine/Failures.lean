import AgileSeal.Proofs.Bundle.WireFormat
import AgileSeal.Proofs.Engine.Opening
import AgileSeal.Proofs.Engine.RoundTrip

set_option autoImplicit false

/-! # Why an engine does not encrypt

With keys that fit its suite and an id that fits a header, an engine encrypts every text that is not
empty unless Diffie-Hellman gives a secret of zeros or the cipher refuses the length of the text
(`Engine.encrypt_cases`). Lengths of keys and nonces, and that of the key of the cipher, are right
in any case.
-/

namespace AgileSeal

namespace SymmetricCipher

/-- A text that is longer than a cipher allows, whatever is authenticated with it. -/
def TooLong (c : SymmetricCipher) (plaintext : Bytes) : Prop :=
  ∀ n, c.cipher.mayEncrypt plaintext.length n = false

/-- Nothing but the text can be too long next to a header. -/
theorem tooLong_of_header {c : SymmetricCipher} {id : String} {plaintext associated : Bytes}
    (hheader : (Header.ofSuite id).encode = .ok associated)
    (h : c.cipher.mayEncrypt plaintext.length associated.length = false) : c.TooLong plaintext := by
  intro n
  cases c with
  | chacha20Poly1305 => exact h
  | xchacha20Poly1305 => exact h
  | aes256Gcm =>
      -- the only cipher that also limits what is authenticated takes far more than a header
      have hshort : decide (associated.length ≤ DetachedCipher.gcmLimit) = true := by
        rw [decide_eq_true_eq]
        exact Nat.le_trans (Header.length_encode_le hheader) (by decide)
      have hboth : (decide (plaintext.length ≤ DetachedCipher.gcmLimit)
          && decide (associated.length ≤ DetachedCipher.gcmLimit)) = false := h
      rw [hshort, Bool.and_true] at hboth
      show (decide (plaintext.length ≤ DetachedCipher.gcmLimit)
        && decide (n ≤ DetachedCipher.gcmLimit)) = false
      rw [hboth, Bool.false_and]

/-- A cipher says the same of every text that is too long. -/
theorem encrypt_of_tooLong {c : SymmetricCipher} {key nonce plaintext : Bytes}
    (hkey : key.length = c.keyLength) (hnonce : nonce.length = c.nonceLength)
    (hlong : c.TooLong plaintext) (associated : Bytes) :
    c.encrypt key nonce plaintext associated = .error (.encryption cipherFailure) := by
  have hnone : c.cipher.encrypt key nonce plaintext associated = none := by
    rw [DetachedCipher.encrypt, hlong]
    rfl
  exact encrypt_eq_error_iff.mpr (.inr ⟨checkLengths_eq_ok_iff.mpr ⟨hkey, hnonce⟩, hnone, rfl⟩)

end SymmetricCipher

namespace Engine

/-- **Why an engine does not encrypt.** -/
theorem encrypt_cases {e : Engine} {plaintext : Bytes} {keys : KeyMaterial} (s : RandomStream)
    (hplaintext : plaintext ≠ []) (hkeys : keys.problem? e.suite = none) {associated : Bytes}
    (hheader : (Header.ofSuite e.suite.id).encode = .ok associated) :
    Nonempty (Run e plaintext keys s) ∨
    (X25519.multiply (s.segment s.position seedLength) keys.classicalPublicKey = Bytes.zeros 32 ∧
      (e.encrypt plaintext keys s).value.1
        = .error (.encryptionFailed (PrimitiveError.encapsulation Kem.nonContributory).message)) ∨
    (e.suite.symmetric.TooLong plaintext ∧ (e.encrypt plaintext keys s).value.1
      = .error (.encryptionFailed
        (PrimitiveError.encryption SymmetricCipher.cipherFailure).message)) := by
  rcases e.suite.classicalKem.transport_cases keys.classicalPublicKey
    (s.segment s.position seedLength) with ⟨shared, hclassical⟩ | ⟨hzero, hrefused⟩
  · cases hfits : e.suite.symmetric.cipher.mayEncrypt plaintext.length associated.length with
    | true => exact .inl (nonempty_run hplaintext hkeys hclassical hheader hfits)
    | false =>
        have hlong := SymmetricCipher.tooLong_of_header hheader hfits
        obtain ⟨⟨encapsulated, pqcSecret⟩, hpqc⟩ := e.suite.pqcKem.exists_transport
          keys.pqcPublicKey (s.segment (s.position + seedLength) seedLength)
        obtain ⟨key, hkey⟩ := e.exists_cipherKey shared.2 pqcSecret (some (e.freshSalt s))
        have hnonce : (e.freshNonce s).length = e.suite.symmetric.nonceLength :=
          RandomStream.length_segment _ _ _
        refine .inr (.inr ⟨hlong, ?_⟩)
        rw [result_encrypt hplaintext hkeys hclassical hpqc hkey hheader,
          SymmetricCipher.encrypt_of_tooLong (e.suite.kdf.length_of_derive _ _ _ _ _ hkey) hnonce
            hlong]
        rfl
  · obtain ⟨hlength, -⟩ := (KeyMaterial.problem?_eq_none_iff _ _).mp hkeys
    have hfit := (KeyMaterial.checkFor_eq_ok_iff _ _).mpr hkeys
    refine .inr (.inl ⟨hzero, ?_⟩)
    rw [encrypt, if_neg hplaintext]
    refine (Stateful.result_bind_ok (Sealing.ofExcept_eq_ok_iff.mpr ⟨hfit, rfl⟩)).trans ?_
    refine Stateful.result_bind_error ?_
    show ((e.suite.classicalKem.kem.encapsulate keys.classicalPublicKey s).1.mapError _) = _
    rw [Kem.encapsulate, if_pos hlength]
    exact congrArg (Except.mapError _) hrefused

/-- An empty text is the fault of the arguments. -/
theorem encrypt_nil (e : Engine) (keys : KeyMaterial) (s : RandomStream) :
    (e.encrypt [] keys s).value.1 = .error (.invalidArgument "plaintext cannot be empty") := rfl

end Engine

end AgileSeal
