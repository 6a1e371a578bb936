import AgileSeal.Keys.Material
import AgileSeal.Proofs.Kem.Kyber.Packed
import AgileSeal.Proofs.Operations

set_option autoImplicit false

/-! # Agreement of key encapsulations

Two sides of a key encapsulation agree on a key pair and random bytes when the private key
recovers the secret that is transported to the public key with these bytes (`Kem.Agrees`). The
lattice scheme does not agree for all pairs and all bytes, so whatever decrypts assumes it. For
given seeds and bytes it is found out by evaluation: Diffie-Hellman agrees if the two products are
the same (`Kem.x25519_agrees`), the lattice scheme if its message survives (`Kem.kyber768_agrees`).
The length of an encapsulated key is right in any case.
-/

namespace AgileSeal

/-- A key pair and random bytes on which both sides agree. -/
def Kem.Agrees (k : Kem) (pair : KeyPair) (random : Bytes) : Prop :=
  ∀ encapsulated secret, k.transport pair.publicKey random = .ok (encapsulated, secret) →
    k.decapsulate pair.privateKey encapsulated = .ok secret

/-- Both key encapsulations of a suite agree on key material and the next bytes of a stream,
of which the classical one takes the first. -/
def KeyMaterial.Agrees (keys : KeyMaterial) (suite : SuiteDefinition) (s : RandomStream) : Prop :=
  ∃ classical pqc, keys.classicalPrivateKey = some classical ∧ keys.pqcPrivateKey = some pqc ∧
    suite.classicalKem.kem.Agrees ⟨classical, keys.classicalPublicKey⟩
      (s.segment s.position seedLength) ∧
    suite.pqcKem.kem.Agrees ⟨pqc, keys.pqcPublicKey⟩
      (s.segment (s.position + seedLength) seedLength)

theorem Kem.x25519_transport (publicKey random : Bytes) : x25519.transport publicKey random
    = (contributory (X25519.multiply random publicKey) .encapsulation).map
      (X25519.publicKey random, ·) := rfl

theorem Kem.kyber768_transport (publicKey random : Bytes) :
    kyber768.transport publicKey random = .ok ((Kyber.encapsulate publicKey random).1,
      (Kyber.encapsulate publicKey random).2.toList) := rfl

/-- Diffie-Hellman agrees on a seed and random bytes that commute. -/
theorem Kem.x25519_agrees {seed random : Bytes} (hseed : seed.length = 32)
    (h : X25519.multiply seed (X25519.publicKey random)
      = X25519.multiply random (X25519.publicKey seed)) :
    x25519.Agrees ⟨seed, X25519.publicKey seed⟩ random := by
  intro encapsulated secret htransport
  rw [x25519_transport, map_eq_ok_iff] at htransport
  obtain ⟨shared, hshared, hpair⟩ := htransport
  obtain ⟨rfl, rfl⟩ := Prod.mk.inj hpair
  have hlengths : seed.length = x25519.privateKeyLength ∧
      (X25519.publicKey random).length = x25519.encapsulatedLength :=
    ⟨hseed, X25519.length_publicKey random⟩
  rw [decapsulate, if_pos hlengths]
  show contributory (X25519.multiply seed (X25519.publicKey random)) .decapsulation = .ok shared
  rw [h]
  generalize X25519.multiply random (X25519.publicKey seed) = product at hshared ⊢
  rw [contributory] at hshared ⊢
  by_cases hzero : product = Bytes.zeros 32
  · rw [if_pos hzero] at hshared
    cases hshared
  · rwa [if_neg hzero] at hshared ⊢

/-- The lattice scheme agrees on a seed and random bytes whose message survives. -/
theorem Kem.kyber768_agrees {seed random : Bytes}
    (h : Kyber.Packed.survives ((ChaCha20.block seed (Bytes.zeros 12) 0).take 32) random = true) :
    kyber768.Agrees (kyberKeyPair seed) random := by
  intro encapsulated secret htransport
  rw [kyber768_transport, Except.ok.injEq] at htransport
  obtain ⟨rfl, rfl⟩ := Prod.mk.inj htransport
  have hlengths : (kyberKeyPair seed).privateKey.length = kyber768.privateKeyLength ∧
      (Kyber.encapsulate (kyberKeyPair seed).publicKey random).1.length
        = kyber768.encapsulatedLength :=
    ⟨length_kyberPrivateKey seed, Kyber.length_encapsulate _ _⟩
  have hsecret := Kyber.decapsulate_encapsulate (Kyber.decrypt_encrypt_of_survives h)
    ((ChaCha20.block seed (Bytes.zeros 12) 0).drop 32)
  rw [decapsulate, if_pos hlengths]
  exact congrArg (fun v => Except.ok v.toList) hsecret

theorem ClassicalKem.length_of_transport (k : ClassicalKem) {publicKey random : Bytes}
    {encapsulated secret : Bytes}
    (h : k.kem.transport publicKey random = .ok (encapsulated, secret)) :
    encapsulated.length = k.kem.encapsulatedLength := by
  cases k with
  | x25519 =>
      rw [ClassicalKem.kem, Kem.x25519_transport, map_eq_ok_iff] at h
      obtain ⟨shared, -, heq⟩ := h
      rw [← (Prod.mk.inj heq).1]
      exact X25519.length_publicKey random

theorem PqcKem.length_of_transport (k : PqcKem) {publicKey random : Bytes}
    {encapsulated secret : Bytes}
    (h : k.kem.transport publicKey random = .ok (encapsulated, secret)) :
    encapsulated.length = k.kem.encapsulatedLength := by
  cases k with
  | kyber768 =>
      rw [PqcKem.kem, Kem.kyber768_transport, Except.ok.injEq] at h
      rw [← (Prod.mk.inj h).1]
      exact Kyber.length_encapsulate publicKey random

end AgileSeal
