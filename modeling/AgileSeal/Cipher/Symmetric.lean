import AgileSeal.Cipher.Detached
import AgileSeal.Error
import AgileSeal.Suite.Algorithm

set_option autoImplicit false

/-! # The cipher of a suite

Each symmetric algorithm of a suite is one of the ciphers with a detached tag. Keys, nonces
and tags are checked for their lengths before the cipher sees them, the key first.
-/

namespace AgileSeal.SymmetricCipher

/-- The cipher of an algorithm. -/
def cipher : SymmetricCipher → DetachedCipher
  | .chacha20Poly1305 => .chacha20Poly1305
  | .xchacha20Poly1305 => .xchacha20Poly1305
  | .aes256Gcm => .aes256Gcm

/-- The length of keys. -/
def keyLength (_ : SymmetricCipher) : Nat := 32

/-- The length of nonces. -/
def nonceLength (c : SymmetricCipher) : Nat := c.cipher.nonceLength

/-- The length of tags. -/
def tagLength (_ : SymmetricCipher) : Nat := 16

/-- The complaint about an input of a wrong length. -/
def wrongLength (what : String) (expected actual : Nat) : PrimitiveError :=
  .invalidInput ("Invalid " ++ what ++ " length: expected " ++ toString expected ++ ", got " ++
    toString actual)

/-- Checks the lengths of a key and a nonce. -/
def checkLengths (c : SymmetricCipher) (key nonce : Bytes) : Except PrimitiveError Unit :=
  if key.length ≠ c.keyLength then .error (wrongLength "AEAD key" c.keyLength key.length)
  else if nonce.length ≠ c.nonceLength then
    .error (wrongLength "nonce" c.nonceLength nonce.length)
  else .ok ()

/-- What is said of any failure inside a cipher. -/
def cipherFailure : String := "aead::Error"

/-- Ciphertext and tag of a plaintext with associated data. -/
def encrypt (c : SymmetricCipher) (key nonce plaintext associated : Bytes) :
    Except PrimitiveError (Bytes × Bytes) := do
  c.checkLengths key nonce
  match c.cipher.encrypt key nonce plaintext associated with
  | some result => return result
  | none => throw (.encryption cipherFailure)

/-- The plaintext of a ciphertext whose tag fits it, the associated data, key and nonce. -/
def decrypt (c : SymmetricCipher) (key nonce ciphertext tag associated : Bytes) :
    Except PrimitiveError Bytes := do
  c.checkLengths key nonce
  if tag.length ≠ c.tagLength then throw (wrongLength "tag" c.tagLength tag.length)
  match c.cipher.decrypt key nonce ciphertext tag associated with
  | some plaintext => return plaintext
  | none => throw (.decryption cipherFailure)

end AgileSeal.SymmetricCipher
