import AgileSeal.Hash.Keccak
import AgileSeal.Kem.Kyber.Coding

set_option autoImplicit false

/-! # The public-key encryption inside the lattice scheme

Messages of 32 bytes are encrypted under a vector of noisy inner products with a public
matrix. The matrix is drawn from a 32-byte seed, everything secret from another; encryption
is deterministic once its 32 bytes of randomness are given. The parameters are those of the
middle strength: three polynomials per vector, ten and four bits per ciphertext coefficient.

Sizes: public keys have 1184 bytes, secret keys 1152 and ciphertexts 1088, whatever the
inputs (`length_publicKey`, `length_secretKey`, `length_encrypt`).
-/

namespace AgileSeal.Kyber

/-! ## Drawing polynomials -/

/-- The candidates for one matrix entry, taken block by block from a sponge until 256 are
below the modulus or `blocks` blocks are used up. -/
def drawCandidates : Nat → Keccak.State → Nat → List Nat
  | 0, _, _ => []
  | blocks + 1, sponge, found =>
    let here := (Poly.candidates ((Keccak.toBytes sponge).take Keccak.shake128Rate)).filter
      (· < modulus)
    if 256 ≤ found + here.length then here
    else here ++ drawCandidates blocks (Keccak.permute sponge) (found + here.length)

/-- The most blocks drawn for one entry. Three usually do; that so many hold fewer than 256
small candidates is out of the question. -/
def maxBlocks : Nat := 1000

/-- The matrix entry that a seed determines at two indices. -/
def matrixEntry (seed : Bytes) (first second : Nat) : Poly :=
  Poly.accept (drawCandidates maxBlocks
    (Keccak.shake128 (seed ++ [UInt8.ofNat first, UInt8.ofNat second])) 0)

/-- The public matrix by rows. -/
def matrix (seed : Bytes) : Vector PolyVec 3 :=
  Vector.ofFn fun row => Vector.ofFn fun column => matrixEntry seed column.val row.val

/-- The transpose of the public matrix by rows. -/
def transposedMatrix (seed : Bytes) : Vector PolyVec 3 :=
  Vector.ofFn fun row => Vector.ofFn fun column => matrixEntry seed row.val column.val

/-- The small polynomial number `index` that a seed determines. -/
def noise (seed : Bytes) (index : Nat) : Poly :=
  Poly.small (Keccak.shake256 128 (seed ++ [UInt8.ofNat index])).toList

/-- Three small polynomials in a row, from number `start` on. -/
def noiseVector (seed : Bytes) (start : Nat) : PolyVec :=
  Vector.ofFn fun i => noise seed (start + i.val)

/-! ## Vectors as bytes -/

/-- The bytes of a vector with `width` bits per coefficient. -/
def encodeVector (width : Nat) (digit : Coefficient → Nat) (a : PolyVec) : Bytes :=
  a.toList.flatMap (Poly.encode width digit)

/-- Reads a vector with `width` bits per coefficient. -/
def decodeVector (width : Nat) (value : Nat → Coefficient) (bytes : Bytes) : PolyVec :=
  Vector.ofFn fun i => Poly.decode width value ((bytes.drop (32 * width * i.val)).take (32 * width))

@[simp] theorem length_encodeVector (width : Nat) (digit : Coefficient → Nat) (a : PolyVec) :
    (encodeVector width digit a).length = 96 * width := by
  have := Keccak.length_flatMap_const (32 * width) (Poly.encode width digit)
    (Poly.length_encode width digit) a.toList
  simp only [encodeVector, this, Vector.length_toList]
  omega

/-! ## Keys, encryption, decryption -/

/-- The two 32-byte seeds that key generation expands one seed into. -/
def expandSeed (seed : Bytes) : Bytes × Bytes :=
  let both := (Keccak.sha3x512 seed).toList
  (both.take 32, both.drop 32)

/-- The secret vector of a key seed, transformed. -/
def secretVector (seed : Bytes) : PolyVec :=
  (noiseVector (expandSeed seed).2 0).transform

/-- The public key of a key seed: the noisy products, then the matrix seed. -/
def publicKey (seed : Bytes) : Bytes :=
  let (matrixSeed, noiseSeed) := expandSeed seed
  let products := PolyVec.product (matrix matrixSeed) (secretVector seed)
  encodeVector 12 Fin.val (products.add (noiseVector noiseSeed 3).transform) ++ matrixSeed

/-- The secret key of a key seed. -/
def secretKey (seed : Bytes) : Bytes := encodeVector 12 Fin.val (secretVector seed)

/-- Encrypts a 32-byte message under a public key with 32 bytes of randomness. -/
def encrypt (publicKey message randomness : Bytes) : Bytes :=
  let products := decodeVector 12 (Fin.ofNat modulus) publicKey
  let r := (noiseVector randomness 0).transform
  let u := (PolyVec.product (transposedMatrix (publicKey.drop 1152)) r).untransform.add
    (noiseVector randomness 3)
  -- a bit of the message moves a coefficient by half the modulus
  let v := ((PolyVec.inner products r).untransform.add (noise randomness 6)).add
    (Poly.decode 1 (Poly.decompress 1) message)
  encodeVector 10 (Poly.compress 10) u ++ Poly.encode 4 (Poly.compress 4) v

/-- Decrypts a ciphertext with a secret key. -/
def decrypt (secretKey ciphertext : Bytes) : Bytes :=
  let u := decodeVector 10 (Poly.decompress 10) ciphertext
  let v := Poly.decode 4 (Poly.decompress 4) (ciphertext.drop 960)
  let secret := decodeVector 12 (Fin.ofNat modulus) secretKey
  Poly.encode 1 (Poly.compress 1) (v.sub (PolyVec.inner secret u.transform).untransform)

@[simp] theorem length_publicKey (seed : Bytes) : (publicKey seed).length = 1184 := by
  simp [publicKey, expandSeed]

@[simp] theorem length_secretKey (seed : Bytes) : (secretKey seed).length = 1152 := by
  simp [secretKey]

@[simp] theorem length_encrypt (publicKey message randomness : Bytes) :
    (encrypt publicKey message randomness).length = 1088 := by
  simp [encrypt]

end AgileSeal.Kyber
