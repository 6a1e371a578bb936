import AgileSeal.Bytes

set_option autoImplicit false

/-! # The X25519 function

Scalar multiplication on the Montgomery curve `y² = x³ + 486662 x² + x` over the field of
`2 ^ 255 - 19` elements, on x-coordinates only. Scalars and coordinates are 32 bytes, least
significant first. A scalar is clamped before use and the top bit of a coordinate is
ignored. Every result has 32 bytes (`length_multiply`).
-/

namespace AgileSeal.X25519

/-- The prime `2 ^ 255 - 19`. -/
def prime : Nat := 0x7fffffffffffffffffffffffffffffffffffffffffffffffffffffffffffffed

instance : @NeZero Nat Zero.ofOfNat0 prime := ⟨Nat.succ_ne_zero (prime - 1)⟩

/-- The field. -/
abbrev Field := Fin prime

/-- The bits of a number below `2 ^ count`, most significant first. -/
def bits (count n : Nat) : List Bool := (List.range count).reverse.map n.testBit

/-- The power of a field element, by squaring along the bits of the exponent. -/
def power (x : Field) (exponent : List Bool) : Field :=
  exponent.foldl (fun acc bit => if bit then acc * acc * x else acc * acc) 1

/-- The inverse of a field element; the inverse of zero is zero. -/
def inverse (x : Field) : Field := power x (bits 255 (prime - 2))

/-- Two projective points whose difference is known: `x₂ / z₂` and `x₃ / z₃`. -/
structure Ladder where
  x₂ : Field
  z₂ : Field
  x₃ : Field
  z₃ : Field

/-- Exchanges the two points. -/
def Ladder.exchange (l : Ladder) : Ladder := ⟨l.x₃, l.z₃, l.x₂, l.z₂⟩

/-- Doubles the first point and adds it to the second; `x₁` is the coordinate of their
difference. -/
def Ladder.step (x₁ : Field) (l : Ladder) : Ladder :=
  let a := l.x₂ + l.z₂
  let b := l.x₂ - l.z₂
  let aa := a * a
  let bb := b * b
  let e := aa - bb
  let da := (l.x₃ - l.z₃) * a
  let cb := (l.x₃ + l.z₃) * b
  -- 121665 is (486662 - 2) / 4 for the coefficient 486662 of the curve
  ⟨aa * bb, e * (aa + Fin.ofNat prime 121665 * e), (da + cb) * (da + cb),
    x₁ * ((da - cb) * (da - cb))⟩

/-- One bit of the scalar. -/
def Ladder.advance (x₁ : Field) (l : Ladder) (bit : Bool) : Ladder :=
  if bit then (l.exchange.step x₁).exchange else l.step x₁

/-- `2 ^ 254`, the bit every clamped scalar has. -/
def topScalarBit : Nat := 0x4000000000000000000000000000000000000000000000000000000000000000

/-- The scalar 32 bytes stand for: the three low bits and the top bit are cleared and bit 254
is set. -/
def clamp (secret : Bytes) : Nat :=
  -- the remainder clears the two top bits, of which the sum sets the lower again
  (Bytes.toNatLE secret / 8 * 8) % topScalarBit + topScalarBit

/-- The x-coordinate 32 bytes stand for; the top bit is ignored. -/
def coordinate (point : Bytes) : Field :=
  Fin.ofNat prime (Bytes.toNatLE point % (2 * topScalarBit))

/-- The product of a secret scalar and a point, both 32 bytes. -/
@[irreducible] def multiply (secret point : Bytes) : Bytes :=
  let x₁ := coordinate point
  let result := (bits 255 (clamp secret)).foldl (Ladder.advance x₁) ⟨1, 0, x₁, 1⟩
  Bytes.ofNatLE 32 (result.x₂ * inverse result.z₂).val

/-- The base point, at coordinate nine. -/
def basePoint : Bytes := Bytes.ofNatLE 32 9

/-- The public key of a secret scalar. -/
def publicKey (secret : Bytes) : Bytes := multiply secret basePoint

@[simp] theorem length_multiply (secret point : Bytes) : (multiply secret point).length = 32 := by
  simp [multiply]

@[simp] theorem length_publicKey (secret : Bytes) : (publicKey secret).length = 32 := by
  simp [publicKey]

end AgileSeal.X25519
