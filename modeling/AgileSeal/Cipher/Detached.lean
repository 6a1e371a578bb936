import AgileSeal.Cipher.ChaCha20
import AgileSeal.Cipher.Poly1305
import AgileSeal.Cipher.Gcm

set_option autoImplicit false

/-! # Authenticated encryption with a detached tag

All ciphers here have one shape: the ciphertext is the plaintext plus a keystream that
depends on key and nonce alone, and the tag authenticates associated data and ciphertext
under the same key and nonce. A `DetachedCipher` names the two parts and the lengths the
cipher accepts; encryption and decryption are written once over it.

Main statements: an encrypted text decrypts to itself (`decrypt_encrypt`); the ciphertext is
as long as the plaintext and the tag has sixteen bytes (`length_of_encrypt`).
-/

namespace AgileSeal

/-- A stream cipher with an authenticator. -/
structure DetachedCipher where
  /-- Bytes of the nonce. -/
  nonceLength : Nat
  /-- Whether a plaintext and associated data of these lengths may be encrypted. -/
  mayEncrypt : Nat → Nat → Bool
  /-- Whether a ciphertext and associated data of these lengths may be decrypted. -/
  mayDecrypt : Nat → Nat → Bool
  /-- Keystream of the given length for a key and a nonce. -/
  keystream : Bytes → Bytes → Nat → Bytes
  /-- The tag of associated data and ciphertext under a key and a nonce. -/
  authenticate : Bytes → Bytes → Bytes → Bytes → Bytes
  mayDecrypt_of_mayEncrypt : ∀ t a, mayEncrypt t a = true → mayDecrypt t a = true
  length_keystream : ∀ key nonce n, (keystream key nonce n).length = n
  length_authenticate : ∀ key nonce associated ciphertext,
    (authenticate key nonce associated ciphertext).length = 16

namespace DetachedCipher

/-- Adds the keystream to a text. -/
def apply (c : DetachedCipher) (key nonce text : Bytes) : Bytes :=
  Bytes.xor text (c.keystream key nonce text.length)

/-- Ciphertext and tag, or nothing when the text is longer than the cipher allows. -/
def encrypt (c : DetachedCipher) (key nonce plaintext associated : Bytes) :
    Option (Bytes × Bytes) :=
  if c.mayEncrypt plaintext.length associated.length then
    let ciphertext := c.apply key nonce plaintext
    some (ciphertext, c.authenticate key nonce associated ciphertext)
  else none

/-- The plaintext, or nothing when the tag does not fit or the text is too long. -/
def decrypt (c : DetachedCipher) (key nonce ciphertext tag associated : Bytes) : Option Bytes :=
  if c.mayDecrypt ciphertext.length associated.length &&
      c.authenticate key nonce associated ciphertext == tag then
    some (c.apply key nonce ciphertext)
  else none

@[simp] theorem length_apply (c : DetachedCipher) (key nonce text : Bytes) :
    (c.apply key nonce text).length = text.length := by
  simp [apply, c.length_keystream]

/-- Adding one string twice changes nothing. -/
theorem xor_xor (a b : Bytes) (h : a.length ≤ b.length) : Bytes.xor (Bytes.xor a b) b = a := by
  induction a generalizing b with
  | nil => rfl
  | cons x a ih =>
    cases b with
    | nil => simp at h
    | cons y b =>
      have step : Bytes.xor (Bytes.xor (x :: a) (y :: b)) (y :: b)
          = (x ^^^ y ^^^ y) :: Bytes.xor (Bytes.xor a b) b := rfl
      rw [step, ih b (by simpa using h), UInt8.xor_assoc, UInt8.xor_self, UInt8.xor_zero]

/-- Adding the keystream twice gives the text back. -/
theorem apply_apply (c : DetachedCipher) (key nonce text : Bytes) :
    c.apply key nonce (c.apply key nonce text) = text := by
  have key_eq : (c.apply key nonce text).length = text.length := length_apply c key nonce text
  show Bytes.xor (c.apply key nonce text)
    (c.keystream key nonce (c.apply key nonce text).length) = text
  rw [key_eq]
  exact xor_xor text _ (by simp [c.length_keystream])

/-- Every encrypted text decrypts to itself under the same key, nonce and associated data. -/
theorem decrypt_encrypt (c : DetachedCipher) (key nonce plaintext associated ciphertext tag : Bytes)
    (h : c.encrypt key nonce plaintext associated = some (ciphertext, tag)) :
    c.decrypt key nonce ciphertext tag associated = some plaintext := by
  unfold DetachedCipher.encrypt at h
  split at h
  · rename_i fits
    simp only [Option.some.injEq, Prod.mk.injEq] at h
    obtain ⟨rfl, rfl⟩ := h
    simp [DetachedCipher.decrypt, c.mayDecrypt_of_mayEncrypt _ _ fits, apply_apply]
  · simp at h

/-- A ciphertext is as long as its plaintext, and a tag has sixteen bytes. -/
theorem length_of_encrypt (c : DetachedCipher) (key nonce plaintext associated : Bytes)
    (ciphertext tag : Bytes)
    (h : c.encrypt key nonce plaintext associated = some (ciphertext, tag)) :
    ciphertext.length = plaintext.length ∧ tag.length = 16 := by
  unfold DetachedCipher.encrypt at h
  split at h
  · simp only [Option.some.injEq, Prod.mk.injEq] at h
    obtain ⟨rfl, rfl⟩ := h
    exact ⟨length_apply c key nonce plaintext, c.length_authenticate _ _ _ _⟩
  · simp at h

/-! ## ChaCha20 with Poly1305 -/

/-- Fewer than `2 ^ 32 - 1` whole blocks of keystream are available. -/
def chachaFits (textLength _associatedLength : Nat) : Bool := textLength / 64 < 0xffffffff

/-- What the tag of ChaCha20-Poly1305 covers: associated data and ciphertext in whole blocks
of sixteen bytes, then their lengths in bytes. -/
def chachaInput (associated ciphertext : Bytes) : Bytes :=
  Gcm.padToBlock associated ++ Gcm.padToBlock ciphertext ++ Bytes.ofNatLE 8 associated.length ++
    Bytes.ofNatLE 8 ciphertext.length

/-- The tag of ChaCha20-Poly1305; the one-time key is the start of keystream block zero. -/
def chachaTag (key nonce associated ciphertext : Bytes) : Bytes :=
  Poly1305.tag ((ChaCha20.block key nonce 0).take 32) (chachaInput associated ciphertext)

/-- ChaCha20-Poly1305 with a 12-byte nonce. -/
def chacha20Poly1305 : DetachedCipher where
  nonceLength := 12
  mayEncrypt := chachaFits
  mayDecrypt := chachaFits
  keystream key nonce n := ChaCha20.keystream key nonce 1 n
  authenticate := chachaTag
  mayDecrypt_of_mayEncrypt _ _ h := h
  length_keystream := by simp
  length_authenticate := by simp [chachaTag]

/-- The 12-byte nonce left after the first sixteen bytes have gone into the key. -/
def shortNonce (nonce : Bytes) : Bytes := Bytes.zeros 4 ++ nonce.drop 16

/-- XChaCha20-Poly1305: the 24-byte nonce is split between a derived key and a short
nonce. -/
def xchacha20Poly1305 : DetachedCipher where
  nonceLength := 24
  mayEncrypt := chachaFits
  mayDecrypt := chachaFits
  keystream key nonce n :=
    ChaCha20.keystream (ChaCha20.extendedKey key nonce) (shortNonce nonce) 1 n
  authenticate key nonce associated ciphertext :=
    chachaTag (ChaCha20.extendedKey key nonce) (shortNonce nonce) associated ciphertext
  mayDecrypt_of_mayEncrypt _ _ h := h
  length_keystream := by simp
  length_authenticate := by simp [chachaTag]

/-! ## AES-256 in Galois counter mode -/

/-- The most bytes of plaintext or associated data: `2 ^ 36`. -/
def gcmLimit : Nat := 0x1000000000

/-- AES-256-GCM with a 12-byte nonce. -/
def aes256Gcm : DetachedCipher where
  nonceLength := 12
  mayEncrypt t a := t ≤ gcmLimit && a ≤ gcmLimit
  mayDecrypt t a := t ≤ gcmLimit + 16 && a ≤ gcmLimit
  keystream := Gcm.keystream
  authenticate := Gcm.tag
  mayDecrypt_of_mayEncrypt t a h := by
    simp only [Bool.and_eq_true, decide_eq_true_eq] at h ⊢
    omega
  length_keystream := by simp
  length_authenticate := by simp

end DetachedCipher

end AgileSeal
