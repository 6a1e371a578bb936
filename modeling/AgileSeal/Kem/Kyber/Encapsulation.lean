import AgileSeal.Kem.KeyPair
import AgileSeal.Kem.Kyber.Encryption

set_option autoImplicit false

/-! # The lattice key encapsulation

The encryption is turned into a key encapsulation that resists chosen ciphertexts: all
randomness of an encryption comes from its message, and decapsulation encrypts again to
check. A ciphertext that does not check out still yields a secret, taken from a random value
in the private key, so decapsulation never fails.

Private keys have 2400 bytes: the secret key of the encryption, the public key, its hash and
the random value (`length_privateKey`). Shared secrets have 32 bytes by their type.
-/

namespace AgileSeal.Kyber

/-- The key pair of two 32-byte values: the seed of the keys and the value that answers bad
ciphertexts. -/
def keyPair (seed rejection : Bytes) : KeyPair :=
  let pub := publicKey seed
  ⟨secretKey seed ++ pub ++ (Keccak.sha3x256 pub).toList ++ rejection, pub⟩

theorem length_privateKey (seed rejection : Bytes) (h : rejection.length = 32) :
    (keyPair seed rejection).privateKey.length = 2400 := by
  simp [keyPair, h]

/-- The shared secret of a first key and a ciphertext. -/
def sharedSecret (first ciphertext : Bytes) : Vector UInt8 32 :=
  Keccak.shake256 32 (first ++ (Keccak.sha3x256 ciphertext).toList)

/-- A ciphertext and the secret it transports, for a public key and 32 random bytes. -/
@[irreducible] def encapsulate (publicKey random : Bytes) : Bytes × Vector UInt8 32 :=
  let message := (Keccak.sha3x256 random).toList
  let expanded := (Keccak.sha3x512 (message ++ (Keccak.sha3x256 publicKey).toList)).toList
  let ciphertext := encrypt publicKey message (expanded.drop 32)
  (ciphertext, sharedSecret (expanded.take 32) ciphertext)

/-- The secret that a ciphertext transports to the holder of a private key. -/
@[irreducible] def decapsulate (privateKey ciphertext : Bytes) : Vector UInt8 32 :=
  let secret := privateKey.take 1152
  let pub := (privateKey.drop 1152).take 1184
  let hash := (privateKey.drop 2336).take 32
  let rejection := privateKey.drop 2368
  let message := decrypt secret ciphertext
  let expanded := (Keccak.sha3x512 (message ++ hash)).toList
  let again := encrypt pub message (expanded.drop 32)
  -- a ciphertext that was not made from this message gets a secret nobody else knows
  sharedSecret (if again == ciphertext then expanded.take 32 else rejection) ciphertext

@[simp] theorem length_encapsulate (publicKey random : Bytes) :
    (encapsulate publicKey random).1.length = 1088 := by
  simp [encapsulate]

end AgileSeal.Kyber
