import AgileSeal.Hash.Function

set_option autoImplicit false

/-! # The SHA-2 family

SHA-256 and SHA-512 are one algorithm over two word sizes: 32-bit words with 64 rounds and
64-bit words with 80 rounds. `Sha2.Word` holds what differs (rotations, round constants,
initial state) and everything else is written once for any such word.

A message is padded with a one bit, zeros and its bit length to a whole number of blocks of
sixteen words; each block is expanded into one word per round, and the rounds turn eight
working words. The digest is the eight words of the final state, most significant byte
first, so it has `8 * width` bytes (`length_toBytes`).
-/

namespace AgileSeal

/-- What one member of the SHA-2 family chooses: its word type and the constants that go
with it. -/
class Sha2.Word (W : Type) extends Add W, AndOp W, XorOp W, Complement W where
  /-- Bytes in a word. -/
  width : Nat
  /-- The word with the given value, modulo the word size. -/
  ofNat : Nat → W
  /-- The value of a word. -/
  toNat : W → Nat
  /-- The mixing function applied to the first working word. -/
  bigSigma0 : W → W
  /-- The mixing function applied to the fifth working word. -/
  bigSigma1 : W → W
  /-- The mixing function of the message schedule for the word fifteen places back. -/
  smallSigma0 : W → W
  /-- The mixing function of the message schedule for the word two places back. -/
  smallSigma1 : W → W
  /-- One constant per round. -/
  roundConstants : List W

namespace Sha2

/-- The eight working words. -/
structure State (W : Type) where
  a : W
  b : W
  c : W
  d : W
  e : W
  f : W
  g : W
  h : W

variable {W : Type}

/-- Word by word sum of two states. -/
@[specialize] def State.add [Word W] (s t : State W) : State W :=
  ⟨s.a + t.a, s.b + t.b, s.c + t.c, s.d + t.d, s.e + t.e, s.f + t.f, s.g + t.g, s.h + t.h⟩

/-- The working words in order. -/
def State.words (s : State W) : List W := [s.a, s.b, s.c, s.d, s.e, s.f, s.g, s.h]

/-- The digest: all words, most significant byte first. -/
@[specialize] def State.toBytes [Word W] (s : State W) : Bytes :=
  s.words.flatMap fun w => Bytes.ofNatBE (Word.width W) (Word.toNat w)

theorem length_toBytes [Word W] (s : State W) : s.toBytes.length = 8 * Word.width W := by
  simp only [State.toBytes, State.words, List.flatMap_cons, List.flatMap_nil, List.length_append,
    Bytes.length_ofNatBE, List.length_nil]
  omega

/-- Extends the sixteen words of a block by `count` more: each new word mixes the words 2, 7,
15 and 16 places back. -/
@[specialize] def expand [Word W] : Nat → Array W → Array W
  | 0, ws => ws
  | count + 1, ws =>
    let back (k : Nat) : W := ws.getD (ws.size - k) (Word.ofNat 0)
    expand count
      (ws.push (Word.smallSigma1 (back 2) + back 7 + Word.smallSigma0 (back 15) + back 16))

/-- One round per pair of a constant and a schedule word. -/
@[specialize] def rounds [Word W] : List W → List W → W → W → W → W → W → W → W → W → State W
  | k :: ks, w :: ws, a, b, c, d, e, f, g, h =>
    let choice := (e &&& f) ^^^ ((~~~e) &&& g)
    let majority := (a &&& b) ^^^ (a &&& c) ^^^ (b &&& c)
    let t := h + Word.bigSigma1 e + choice + k + w
    -- every word moves one place on; only the first and the fifth are new
    rounds ks ws (t + (Word.bigSigma0 a + majority)) a b c (d + t) e f g
  | _, _, a, b, c, d, e, f, g, h => ⟨a, b, c, d, e, f, g, h⟩

/-- Absorbs one block. -/
@[specialize] def compress [Word W] (s : State W) (block : Bytes) : State W :=
  let ws := (Bytes.chunks (Word.width W) block).map fun b => (Word.ofNat (Bytes.toNatBE b) : W)
  let schedule := expand ((Word.roundConstants (W := W)).length - 16) ws.toArray
  s.add (rounds Word.roundConstants schedule.toList s.a s.b s.c s.d s.e s.f s.g s.h)

/-- What follows the message: a one bit, zeros up to the last two words of a block, and the
bit length of the message in those two words. -/
def padding (width length : Nat) : Bytes :=
  let block := 16 * width
  let tail := 1 + 2 * width
  -- the zeros are as many as are missing to the next whole block, possibly none
  0x80 :: Bytes.zeros ((block - (length + tail) % block) % block) ++
    Bytes.ofNatBE (2 * width) (8 * length)

/-- The digest of a message, starting from the given state. -/
@[specialize] def hash [Word W] (initial : State W) (message : Bytes) : Bytes :=
  let padded := message ++ padding (Word.width W) message.length
  ((Bytes.chunks (16 * Word.width W) padded).foldl compress initial).toBytes

theorem length_hash [Word W] (initial : State W) (message : Bytes) :
    (hash initial message).length = 8 * Word.width W := length_toBytes _

/-! ## The 32-bit member -/

/-- Rotation of a 32-bit word to the right by `n` places, `0 < n < 32`. -/
@[inline] def rotateRight32 (x n : UInt32) : UInt32 := (x >>> n) ||| (x <<< (32 - n))

/-- The 64 round constants of SHA-256. -/
def roundConstants32 : List UInt32 := [
  0x428a2f98, 0x71374491, 0xb5c0fbcf, 0xe9b5dba5, 0x3956c25b, 0x59f111f1, 0x923f82a4, 0xab1c5ed5,
  0xd807aa98, 0x12835b01, 0x243185be, 0x550c7dc3, 0x72be5d74, 0x80deb1fe, 0x9bdc06a7, 0xc19bf174,
  0xe49b69c1, 0xefbe4786, 0x0fc19dc6, 0x240ca1cc, 0x2de92c6f, 0x4a7484aa, 0x5cb0a9dc, 0x76f988da,
  0x983e5152, 0xa831c66d, 0xb00327c8, 0xbf597fc7, 0xc6e00bf3, 0xd5a79147, 0x06ca6351, 0x14292967,
  0x27b70a85, 0x2e1b2138, 0x4d2c6dfc, 0x53380d13, 0x650a7354, 0x766a0abb, 0x81c2c92e, 0x92722c85,
  0xa2bfe8a1, 0xa81a664b, 0xc24b8b70, 0xc76c51a3, 0xd192e819, 0xd6990624, 0xf40e3585, 0x106aa070,
  0x19a4c116, 0x1e376c08, 0x2748774c, 0x34b0bcb5, 0x391c0cb3, 0x4ed8aa4a, 0x5b9cca4f, 0x682e6ff3,
  0x748f82ee, 0x78a5636f, 0x84c87814, 0x8cc70208, 0x90befffa, 0xa4506ceb, 0xbef9a3f7, 0xc67178f2]

instance : Word UInt32 where
  width := 4
  ofNat := UInt32.ofNat
  toNat := UInt32.toNat
  bigSigma0 x := rotateRight32 x 2 ^^^ rotateRight32 x 13 ^^^ rotateRight32 x 22
  bigSigma1 x := rotateRight32 x 6 ^^^ rotateRight32 x 11 ^^^ rotateRight32 x 25
  smallSigma0 x := rotateRight32 x 7 ^^^ rotateRight32 x 18 ^^^ (x >>> 3)
  smallSigma1 x := rotateRight32 x 17 ^^^ rotateRight32 x 19 ^^^ (x >>> 10)
  roundConstants := roundConstants32

/-- The initial state of SHA-256. -/
def initial256 : State UInt32 :=
  ⟨0x6a09e667, 0xbb67ae85, 0x3c6ef372, 0xa54ff53a, 0x510e527f, 0x9b05688c, 0x1f83d9ab, 0x5be0cd19⟩

/-! ## The 64-bit member -/

/-- Rotation of a 64-bit word to the right by `n` places, `0 < n < 64`. -/
@[inline] def rotateRight64 (x n : UInt64) : UInt64 := (x >>> n) ||| (x <<< (64 - n))

/-- The 80 round constants of SHA-512. -/
def roundConstants64 : List UInt64 := [
  0x428a2f98d728ae22, 0x7137449123ef65cd, 0xb5c0fbcfec4d3b2f, 0xe9b5dba58189dbbc,
  0x3956c25bf348b538, 0x59f111f1b605d019, 0x923f82a4af194f9b, 0xab1c5ed5da6d8118,
  0xd807aa98a3030242, 0x12835b0145706fbe, 0x243185be4ee4b28c, 0x550c7dc3d5ffb4e2,
  0x72be5d74f27b896f, 0x80deb1fe3b1696b1, 0x9bdc06a725c71235, 0xc19bf174cf692694,
  0xe49b69c19ef14ad2, 0xefbe4786384f25e3, 0x0fc19dc68b8cd5b5, 0x240ca1cc77ac9c65,
  0x2de92c6f592b0275, 0x4a7484aa6ea6e483, 0x5cb0a9dcbd41fbd4, 0x76f988da831153b5,
  0x983e5152ee66dfab, 0xa831c66d2db43210, 0xb00327c898fb213f, 0xbf597fc7beef0ee4,
  0xc6e00bf33da88fc2, 0xd5a79147930aa725, 0x06ca6351e003826f, 0x142929670a0e6e70,
  0x27b70a8546d22ffc, 0x2e1b21385c26c926, 0x4d2c6dfc5ac42aed, 0x53380d139d95b3df,
  0x650a73548baf63de, 0x766a0abb3c77b2a8, 0x81c2c92e47edaee6, 0x92722c851482353b,
  0xa2bfe8a14cf10364, 0xa81a664bbc423001, 0xc24b8b70d0f89791, 0xc76c51a30654be30,
  0xd192e819d6ef5218, 0xd69906245565a910, 0xf40e35855771202a, 0x106aa07032bbd1b8,
  0x19a4c116b8d2d0c8, 0x1e376c085141ab53, 0x2748774cdf8eeb99, 0x34b0bcb5e19b48a8,
  0x391c0cb3c5c95a63, 0x4ed8aa4ae3418acb, 0x5b9cca4f7763e373, 0x682e6ff3d6b2b8a3,
  0x748f82ee5defb2fc, 0x78a5636f43172f60, 0x84c87814a1f0ab72, 0x8cc702081a6439ec,
  0x90befffa23631e28, 0xa4506cebde82bde9, 0xbef9a3f7b2c67915, 0xc67178f2e372532b,
  0xca273eceea26619c, 0xd186b8c721c0c207, 0xeada7dd6cde0eb1e, 0xf57d4f7fee6ed178,
  0x06f067aa72176fba, 0x0a637dc5a2c898a6, 0x113f9804bef90dae, 0x1b710b35131c471b,
  0x28db77f523047d84, 0x32caab7b40c72493, 0x3c9ebe0a15c9bebc, 0x431d67c49c100d4c,
  0x4cc5d4becb3e42b6, 0x597f299cfc657e2a, 0x5fcb6fab3ad6faec, 0x6c44198c4a475817]

instance : Word UInt64 where
  width := 8
  ofNat := UInt64.ofNat
  toNat := UInt64.toNat
  bigSigma0 x := rotateRight64 x 28 ^^^ rotateRight64 x 34 ^^^ rotateRight64 x 39
  bigSigma1 x := rotateRight64 x 14 ^^^ rotateRight64 x 18 ^^^ rotateRight64 x 41
  smallSigma0 x := rotateRight64 x 1 ^^^ rotateRight64 x 8 ^^^ (x >>> 7)
  smallSigma1 x := rotateRight64 x 19 ^^^ rotateRight64 x 61 ^^^ (x >>> 6)
  roundConstants := roundConstants64

/-- The initial state of SHA-512. -/
def initial512 : State UInt64 :=
  ⟨0x6a09e667f3bcc908, 0xbb67ae8584caa73b, 0x3c6ef372fe94f82b, 0xa54ff53a5f1d36f1,
    0x510e527fade682d1, 0x9b05688c2b3e6c1f, 0x1f83d9abfb41bd6b, 0x5be0cd19137e2179⟩

end Sha2

/-- SHA-256: 32-byte digests, 64-byte blocks. -/
def sha256 : HashFunction where
  blockLength := 64
  digestLength := 32
  digest message := Bytes.toVector (Sha2.hash Sha2.initial256 message) (Sha2.length_hash _ _)

/-- SHA-512: 64-byte digests, 128-byte blocks. -/
def sha512 : HashFunction where
  blockLength := 128
  digestLength := 64
  digest message := Bytes.toVector (Sha2.hash Sha2.initial512 message) (Sha2.length_hash _ _)

end AgileSeal
