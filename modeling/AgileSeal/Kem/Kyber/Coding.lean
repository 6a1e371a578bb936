import AgileSeal.Bytes
import AgileSeal.Kem.Kyber.Ring

set_option autoImplicit false

/-! # Bytes and polynomials

How polynomials are written as bytes, and how bytes that look random become polynomials.
A polynomial written with `width` bits per coefficient takes `32 * width` bytes
(`length_encode`). Rounding a coefficient to fewer bits before writing loses precision that
the scheme tolerates.
-/

namespace AgileSeal.Kyber

namespace Poly

/-! ## Packing -/

/-- Numbers of `width` bits packed into one number, the first lowest. -/
def pack (width : Nat) (values : List Nat) : Nat :=
  values.foldr (fun v acc => (acc <<< width) ||| v) 0

/-- The 256 numbers of `width` bits packed into one. -/
def unpack (width packed : Nat) : Vector Nat 256 :=
  Vector.ofFn fun i => (packed >>> (width * i.val)) % (1 <<< width)

/-- A polynomial with `width` bits per coefficient; `digit` says what is written for a
coefficient. -/
def encode (width : Nat) (digit : Coefficient → Nat) (a : Poly) : Bytes :=
  Bytes.ofNatLE (32 * width) (pack width (a.toList.map digit))

/-- Reads a polynomial with `width` bits per coefficient. -/
def decode (width : Nat) (value : Nat → Coefficient) (bytes : Bytes) : Poly :=
  (unpack width (Bytes.toNatLE bytes)).map value

@[simp] theorem length_encode (width : Nat) (digit : Coefficient → Nat) (a : Poly) :
    (encode width digit a).length = 32 * width := by
  simp [encode]

/-! ## Rounding -/

/-- A coefficient rounded to `width` bits. -/
def compress (width : Nat) (x : Coefficient) : Nat :=
  (((x.val <<< width) + modulus / 2) / modulus) % (1 <<< width)

/-- The coefficient that `width` bits stand for. -/
def decompress (width : Nat) (y : Nat) : Coefficient :=
  Fin.ofNat modulus ((y * modulus + (1 <<< (width - 1))) >>> width)

/-! ## Sampling -/

/-- A small polynomial from 128 bytes: each coefficient is the difference of two sums of two
bits. -/
def small (bytes : Bytes) : Poly :=
  (unpack 4 (Bytes.toNatLE bytes)).map fun n =>
    let bit (k : Nat) : Nat := (n >>> k) % 2
    Fin.ofNat modulus (bit 0 + bit 1) - Fin.ofNat modulus (bit 2 + bit 3)

/-- The candidates of twelve bits in a stream of bytes, two from every three bytes. -/
def candidates : Bytes → List Nat
  | x :: y :: z :: rest =>
    (x.toNat + 256 * (y.toNat % 16)) :: (y.toNat / 16 + 16 * z.toNat) :: candidates rest
  | _ => []

/-- The first 256 candidates below the modulus; what is missing counts as zero. -/
def accept (found : List Nat) : Poly :=
  let kept := (found.filter (· < modulus)).toArray
  Vector.ofFn fun i => Fin.ofNat modulus (kept.getD i.val 0)

end Poly

end AgileSeal.Kyber
