import AgileSeal.Bytes

set_option autoImplicit false

/-! # The Poly1305 one-time authenticator

A 32-byte key holds a point `r` and a pad. The message is cut into pieces of sixteen bytes,
each read as a number with one more byte of value one on top; the tag is the value of the
polynomial with these coefficients at `r`, modulo the prime, plus the pad.
-/

namespace AgileSeal.Poly1305

/-- The prime `2 ^ 130 - 5`. -/
def prime : Nat := 0x3fffffffffffffffffffffffffffffffb

/-- The bits that a point may have. -/
def clampMask : Nat := 0x0ffffffc0ffffffc0ffffffc0fffffff

/-- The 16-byte tag of a message under a 32-byte one-time key. -/
def tag (key message : Bytes) : Bytes :=
  let r := Bytes.toNatLE (key.take 16) &&& clampMask
  let pad := Bytes.toNatLE (key.drop 16)
  let value := (Bytes.chunks 16 message).foldl
    (fun acc piece => (acc + Bytes.toNatLE (piece ++ [1])) * r % prime) 0
  Bytes.ofNatLE 16 (value + pad)

@[simp] theorem length_tag (key message : Bytes) : (tag key message).length = 16 := by
  simp [tag]

end AgileSeal.Poly1305
