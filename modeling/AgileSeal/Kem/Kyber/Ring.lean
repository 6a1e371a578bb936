import AgileSeal.Cyclic

set_option autoImplicit false

/-! # The ring of the lattice scheme

Polynomials with 256 coefficients modulo 3329, and the number-theoretic transform that turns
their product modulo `X ^ 256 + 1` into 128 small products. The transform works in seven
layers of butterflies; layer after layer, the distance between the two coefficients of a
butterfly halves from 128 to 2.
-/

namespace AgileSeal.Kyber

/-- The modulus of the coefficients. -/
def modulus : Nat := 3329

instance : @NeZero Nat Zero.ofOfNat0 modulus := ⟨Nat.succ_ne_zero 3328⟩

/-- A coefficient. -/
abbrev Coefficient := Fin modulus

/-- A polynomial, or its transform. -/
abbrev Poly := Vector Coefficient 256

/-- A vector of three polynomials. -/
abbrev PolyVec := Vector Poly 3

namespace Poly

/-- The zero polynomial. -/
def zero : Poly := Vector.replicate 256 0

/-- The sum of two polynomials. -/
def add (a b : Poly) : Poly := Vector.zipWith (fun x y => x + y) a b

/-- The difference of two polynomials. -/
def sub (a b : Poly) : Poly := Vector.zipWith (fun x y => x - y) a b

/-! ## The transform -/

/-- The seven low bits of a number in reverse order. -/
def reverseBits (n : Nat) : Nat :=
  (List.range 7).foldl (fun acc i => 2 * acc + (if n.testBit i then 1 else 0)) 0

/-- The powers of the root of unity 17 used by the butterflies, in the order in which the
layers use them. -/
def roots : Vector Coefficient 128 := Vector.ofFn fun k =>
  (List.range (reverseBits k.val)).foldl (fun acc _ => acc * Fin.ofNat modulus 17) 1

/-- The root with the given number. -/
def root (k : Nat) : Coefficient := cyclic roots k

/-- One layer of butterflies at distance `len`: `(a, b)` becomes `(a + ζ b, a - ζ b)`. -/
def layer (a : Poly) (len : Nat) : Poly :=
  Vector.ofFn fun i =>
    -- the layer has one root for each group of `2 * len` coefficients, from number `128 / len` on
    let ζ := root (128 / len + i.val / (2 * len))
    if i.val % (2 * len) < len then a.get i + ζ * cyclic a (i.val + len)
    else cyclic a (i.val - len) - ζ * a.get i

/-- One layer of inverse butterflies at distance `len`, up to a factor of two: `(a, b)`
becomes `(a + b, ζ (b - a))`, with the negated inverse of the forward root. -/
def inverseLayer (a : Poly) (len : Nat) : Poly :=
  Vector.ofFn fun i =>
    -- the same roots in the opposite order
    let ζ := root (2 * (128 / len) - 1 - i.val / (2 * len))
    if i.val % (2 * len) < len then a.get i + cyclic a (i.val + len)
    else ζ * (a.get i - cyclic a (i.val - len))

/-- The number-theoretic transform. -/
def transform (a : Poly) : Poly := [128, 64, 32, 16, 8, 4, 2].foldl layer a

/-- The inverse transform; the last factor undoes the seven doublings. -/
def untransform (a : Poly) : Poly :=
  -- 3303 is the inverse of 128 modulo 3329
  ([2, 4, 8, 16, 32, 64, 128].foldl inverseLayer a).map fun x => x * Fin.ofNat modulus 3303

/-- The product of two transforms: pair by pair, modulo `X ^ 2 - γ` for the root `γ` of the
pair. -/
def multiply (a b : Poly) : Poly :=
  Vector.ofFn fun i =>
    let pair := i.val / 2
    let low := 2 * pair
    let high := 2 * pair + 1
    let ζ := root (64 + pair / 2)
    let γ := if pair % 2 = 0 then ζ else 0 - ζ
    if i.val % 2 = 0 then
      cyclic a low * cyclic b low + cyclic a high * cyclic b high * γ
    else cyclic a low * cyclic b high + cyclic a high * cyclic b low

end Poly

namespace PolyVec

/-- The sum of two vectors. -/
def add (a b : PolyVec) : PolyVec := Vector.zipWith Poly.add a b

/-- The transform of each entry. -/
def transform (a : PolyVec) : PolyVec := a.map Poly.transform

/-- The inverse transform of each entry. -/
def untransform (a : PolyVec) : PolyVec := a.map Poly.untransform

/-- The inner product of two vectors of transforms. -/
def inner (a b : PolyVec) : Poly :=
  (Vector.zipWith Poly.multiply a b).foldl Poly.add Poly.zero

/-- The product of a matrix, given by its rows, with a vector of transforms. -/
def product (rows : Vector PolyVec 3) (a : PolyVec) : PolyVec := rows.map fun row => inner row a

end PolyVec

end AgileSeal.Kyber
