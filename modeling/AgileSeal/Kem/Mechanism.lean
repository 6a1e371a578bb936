import AgileSeal.Cipher.ChaCha20
import AgileSeal.Error
import AgileSeal.Kem.Kyber.Encapsulation
import AgileSeal.Kem.X25519
import AgileSeal.Random.Stream
import AgileSeal.Suite.Algorithm

set_option autoImplicit false

/-! # Key encapsulation

A key encapsulation makes a key pair from a 32-byte seed, transports a fresh secret to a
public key and recovers it with the private key. A `Kem` names the lengths of its keys and
checks every input against them, so the operations behind it only see inputs of the right
length. All keys it makes have those lengths.

Encapsulation draws 32 random bytes after the length of the public key has been checked.
-/

namespace AgileSeal

/-- The length of seeds and of the random bytes an encapsulation takes. -/
def seedLength : Nat := 32

/-- A key encapsulation. -/
structure Kem where
  publicKeyLength : Nat
  privateKeyLength : Nat
  encapsulatedLength : Nat
  /-- The key pair of a seed. -/
  keyPair : Bytes → KeyPair
  /-- The complaint about a public key of a wrong length. -/
  publicKeyProblem : Nat → String
  /-- The complaint about a private key or an encapsulated key of a wrong length. -/
  recipientProblem : Nat → Nat → String
  /-- Encapsulated key and secret for a public key of the right length and random bytes. -/
  transport : Bytes → Bytes → Except PrimitiveError (Bytes × Bytes)
  /-- The secret for a private key and an encapsulated key of the right lengths. -/
  recover : Bytes → Bytes → Except PrimitiveError Bytes
  length_publicKey : ∀ seed, seed.length = seedLength →
    (keyPair seed).publicKey.length = publicKeyLength
  length_privateKey : ∀ seed, seed.length = seedLength →
    (keyPair seed).privateKey.length = privateKeyLength

namespace Kem

/-- A new key pair. -/
def generate (k : Kem) (s : RandomStream) : KeyPair × RandomStream :=
  (k.keyPair (s.draw seedLength).1, (s.draw seedLength).2)

/-- A fresh secret for a public key: the encapsulated key and the secret. -/
def encapsulate (k : Kem) (publicKey : Bytes) (s : RandomStream) :
    Except PrimitiveError (Bytes × Bytes) × RandomStream :=
  if publicKey.length = k.publicKeyLength then
    (k.transport publicKey (s.draw seedLength).1, (s.draw seedLength).2)
  else (.error (.invalidInput (k.publicKeyProblem publicKey.length)), s)

/-- The secret that an encapsulated key transports to a private key. -/
def decapsulate (k : Kem) (privateKey encapsulated : Bytes) : Except PrimitiveError Bytes :=
  if privateKey.length = k.privateKeyLength ∧ encapsulated.length = k.encapsulatedLength then
    k.recover privateKey encapsulated
  else .error (.invalidInput (k.recipientProblem privateKey.length encapsulated.length))

/-! ## X25519 -/

/-- The complaint about an input of X25519. -/
def wrongX25519Length (what : String) (length : Nat) : String :=
  "Invalid X25519 " ++ what ++ " length: expected 32, got " ++ toString length

/-- The complaint about a secret that the other side has forced to be zero. -/
def nonContributory : String := "Non-contributory X25519 shared secret"

/-- Refuses a shared secret of zeros. -/
def contributory (secret : Bytes) (refusal : String → PrimitiveError) :
    Except PrimitiveError Bytes :=
  if secret = Bytes.zeros 32 then .error (refusal nonContributory) else .ok secret

/-- Diffie-Hellman with an ephemeral key: the ephemeral public key is the encapsulated
key. -/
def x25519 : Kem where
  publicKeyLength := 32
  privateKeyLength := 32
  encapsulatedLength := 32
  keyPair seed := ⟨seed, X25519.publicKey seed⟩
  publicKeyProblem := wrongX25519Length "public key"
  recipientProblem privateLength encapsulatedLength :=
    if privateLength = 32 then wrongX25519Length "ephemeral key" encapsulatedLength
    else wrongX25519Length "private key" privateLength
  transport publicKey random :=
    (contributory (X25519.multiply random publicKey) .encapsulation).map
      (X25519.publicKey random, ·)
  recover privateKey encapsulated :=
    contributory (X25519.multiply privateKey encapsulated) .decapsulation
  length_publicKey seed _ := X25519.length_publicKey seed
  length_privateKey _ h := h

/-! ## Kyber768 -/

/-- The two 32-byte values of a Kyber key pair are the start of the keystream whose key is the
seed. -/
def kyberKeyPair (seed : Bytes) : KeyPair :=
  let stream := ChaCha20.block seed (Bytes.zeros 12) 0
  -- a block has 64 bytes, so nothing of it is left over
  Kyber.keyPair (stream.take 32) (stream.drop 32)

theorem length_kyberPublicKey (seed : Bytes) : (kyberKeyPair seed).publicKey.length = 1184 := by
  simp [kyberKeyPair, Kyber.keyPair]

theorem length_kyberPrivateKey (seed : Bytes) : (kyberKeyPair seed).privateKey.length = 2400 := by
  simp [kyberKeyPair, Kyber.length_privateKey]

/-- The lattice key encapsulation. -/
def kyber768 : Kem where
  publicKeyLength := 1184
  privateKeyLength := 2400
  encapsulatedLength := 1088
  keyPair := kyberKeyPair
  publicKeyProblem length :=
    "Invalid Kyber public key length: expected 1184, got " ++ toString length
  recipientProblem _ _ := "Invalid Kyber key or ciphertext length"
  transport publicKey random :=
    let (encapsulated, secret) := Kyber.encapsulate publicKey random
    .ok (encapsulated, secret.toList)
  recover privateKey encapsulated := .ok (Kyber.decapsulate privateKey encapsulated).toList
  length_publicKey seed _ := length_kyberPublicKey seed
  length_privateKey seed _ := length_kyberPrivateKey seed

end Kem

/-- The key encapsulation of a classical algorithm. -/
def ClassicalKem.kem : ClassicalKem → Kem
  | .x25519 => Kem.x25519

/-- The key encapsulation of a post-quantum algorithm. -/
def PqcKem.kem : PqcKem → Kem
  | .kyber768 => Kem.kyber768

end AgileSeal
