import AgileSeal.Cyclic
import AgileSeal.Hash.Function
import AgileSeal.Mixing

set_option autoImplicit false

/-! # BLAKE2b

The unkeyed hash function with digests of 1 to 64 bytes. The chain of eight words is turned
block by block; each block also enters how many message bytes have been absorbed so far, and
the last block is marked. `length_hash` states that a digest of `length` bytes has `length`
bytes, as long as at most 64 are asked for.
-/

namespace AgileSeal.Blake2b

/-- The initial chain, before the digest length is entered. -/
def initial : Vector UInt64 8 := #v[
  0x6a09e667f3bcc908, 0xbb67ae8584caa73b, 0x3c6ef372fe94f82b, 0xa54ff53a5f1d36f1,
  0x510e527fade682d1, 0x9b05688c2b3e6c1f, 0x1f83d9abfb41bd6b, 0x5be0cd19137e2179]

/-- For each of the twelve rounds, the order in which the words of a block are used. -/
def schedule : List (List Nat) := [
  [0, 1, 2, 3, 4, 5, 6, 7, 8, 9, 10, 11, 12, 13, 14, 15],
  [14, 10, 4, 8, 9, 15, 13, 6, 1, 12, 0, 2, 11, 7, 5, 3],
  [11, 8, 12, 0, 5, 2, 15, 13, 10, 14, 3, 6, 7, 1, 9, 4],
  [7, 9, 3, 1, 13, 12, 11, 14, 2, 6, 5, 10, 4, 0, 15, 8],
  [9, 0, 5, 7, 2, 4, 10, 15, 14, 1, 11, 12, 6, 8, 3, 13],
  [2, 12, 6, 10, 0, 11, 8, 3, 4, 13, 7, 5, 15, 14, 1, 9],
  [12, 5, 1, 15, 14, 13, 4, 10, 0, 7, 6, 3, 9, 2, 8, 11],
  [13, 11, 7, 14, 12, 1, 3, 9, 5, 0, 15, 4, 8, 6, 2, 10],
  [6, 15, 14, 9, 11, 3, 0, 8, 12, 2, 13, 7, 1, 4, 10, 5],
  [10, 2, 8, 4, 7, 6, 1, 5, 15, 11, 9, 14, 3, 12, 13, 0],
  [0, 1, 2, 3, 4, 5, 6, 7, 8, 9, 10, 11, 12, 13, 14, 15],
  [14, 10, 4, 8, 9, 15, 13, 6, 1, 12, 0, 2, 11, 7, 5, 3]]

/-- Rotation of a word to the right by `n` places, `0 < n < 64`. -/
@[inline] def rotateRight (x n : UInt64) : UInt64 := (x >>> n) ||| (x <<< (64 - n))

/-- Mixes four words of the square with two words of the block. -/
@[inline] def mix (x y a b c d : UInt64) : UInt64 × UInt64 × UInt64 × UInt64 :=
  let a := a + b + x
  let d := rotateRight (d ^^^ a) 32
  let c := c + d
  let b := rotateRight (b ^^^ c) 24
  let a := a + b + y
  let d := rotateRight (d ^^^ a) 16
  let c := c + d
  let b := rotateRight (b ^^^ c) 63
  (a, b, c, d)

/-- One round: the eight quartets of the square, each with the next two words of the
order. -/
def round (block square : Vector UInt64 16) : List Quartet → List Nat → Vector UInt64 16
  | q :: qs, i :: j :: order =>
    round block (q.update (mix (cyclic block i) (cyclic block j)) square) qs order
  | _, _ => square

/-- Absorbs one block; `absorbed` counts the message bytes up to its end. -/
def compress (chain : Vector UInt64 8) (block : Bytes) (absorbed : Nat) (last : Bool) :
    Vector UInt64 8 :=
  let given := ((Bytes.chunks 8 block).map fun b => UInt64.ofNat (Bytes.toNatLE b)).toArray
  let words : Vector UInt64 16 := Vector.ofFn fun i => given.getD i.val 0
  let square : Vector UInt64 16 := chain ++ initial
  -- words 12 and 13 take the two halves of the count, word 14 the mark of the last block
  let square := square.set 12 (cyclic square 12 ^^^ UInt64.ofNat absorbed)
  let square := square.set 13 (cyclic square 13 ^^^ UInt64.ofNat (absorbed >>> 64))
  let square := if last then square.set 14 (~~~cyclic square 14) else square
  let square := schedule.foldl
    (fun s order => round words s Quartet.columnsThenDiagonals order) square
  Vector.ofFn fun i => chain.get i ^^^ cyclic square i ^^^ cyclic square (i + 8)

/-- Absorbs the blocks of a message of which `absorbed` bytes are already in the chain. -/
def absorb (chain : Vector UInt64 8) (absorbed : Nat) : List Bytes → Vector UInt64 8
  | [] => chain
  | [block] => compress chain block (absorbed + block.length) true
  | block :: rest => absorb (compress chain block (absorbed + 128) false) (absorbed + 128) rest

/-- The digest of `length` bytes, for `length` from 1 to 64. An empty message is one empty
block. -/
def hash (length : Nat) (message : Bytes) : Bytes :=
  -- the parameters: the digest length, no key, and a tree of one node
  let chain := initial.set 0 (cyclic initial 0 ^^^ 0x01010000 ^^^ UInt64.ofNat length)
  let blocks := if message.isEmpty then [[]] else Bytes.chunks 128 message
  ((absorb chain 0 blocks).toList.flatMap fun w => Bytes.ofNatLE 8 w.toNat).take length

theorem length_hash (length : Nat) (h : length ≤ 64) (message : Bytes) :
    (hash length message).length = length := by
  have key : ∀ xs : List UInt64,
      (xs.flatMap fun w => Bytes.ofNatLE 8 w.toNat).length = 8 * xs.length := by
    intro xs
    induction xs with
    | nil => rfl
    | cons x xs ih =>
      simp only [List.flatMap_cons, List.length_append, Bytes.length_ofNatLE, ih,
        List.length_cons]
      omega
  simp only [hash, List.length_take, key, Vector.length_toList]
  omega

end AgileSeal.Blake2b
