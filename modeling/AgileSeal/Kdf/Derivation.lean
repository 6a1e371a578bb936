import AgileSeal.Error
import AgileSeal.Hash.Sha2
import AgileSeal.Kdf.Hmac
import AgileSeal.Suite.Algorithm

set_option autoImplicit false

/-! # Key derivation of a suite

Each derivation of a suite is HKDF over one of the two hash functions. A missing salt counts
as an empty one, and the only failure is an output of more than 255 digests.
-/

namespace AgileSeal.KeyDerivation

/-- The hash function of a derivation. -/
def hash : KeyDerivation → HashFunction
  | .hkdfSha256 => sha256
  | .hkdfSha512 => sha512

/-- The complaint about too long an output. -/
def tooLong : String := "invalid number of blocks, too large output"

/-- `length` bytes from key material, a salt and a context. -/
def derive (k : KeyDerivation) (material : Bytes) (salt : Option Bytes) (context : Bytes)
    (length : Nat) : Except PrimitiveError Bytes :=
  match k.hash.hkdf material (salt.getD []) context length with
  | some output => .ok output
  | none => .error (.keyDerivation tooLong)

theorem digestLength_pos (k : KeyDerivation) : 0 < k.hash.digestLength := by
  cases k <;> decide

/-- A derived key has the length asked for. -/
theorem length_of_derive (k : KeyDerivation) (material : Bytes) (salt : Option Bytes)
    (context : Bytes) (length : Nat) (output : Bytes)
    (h : k.derive material salt context length = .ok output) : output.length = length := by
  unfold derive at h
  split at h
  · rename_i eq
    simp only [Except.ok.injEq] at h
    subst h
    exact k.hash.length_of_hkdf _ _ _ _ _ k.digestLength_pos eq
  · simp at h

end AgileSeal.KeyDerivation
