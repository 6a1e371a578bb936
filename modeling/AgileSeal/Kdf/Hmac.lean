import AgileSeal.Hash.Sha2

set_option autoImplicit false

/-! # Keyed hashing and the key derivation built on it

HMAC over any hash function, the extract-and-expand derivation HKDF, and the iterated
password derivation PBKDF2.

Lengths are part of the types or stated beside the definitions: a tag has the digest length
of its hash function, and whenever HKDF delivers, it delivers as many bytes as were asked
for (`length_of_hkdf`). HKDF refuses exactly the requests for more than 255 digests
(`hkdf_isSome`).
-/

namespace AgileSeal

/-! ## HMAC -/

/-- The key as one block: a key longer than a block is hashed first, then zeros fill up. -/
def HashFunction.blockKey (hash : HashFunction) (key : Bytes) : Bytes :=
  let short := if key.length ≤ hash.blockLength then key else (hash.digest key).toList
  short ++ Bytes.zeros (hash.blockLength - short.length)

/-- The tag of a message under a key of one block. -/
def HashFunction.blockTag (hash : HashFunction) (block message : Bytes) :
    Vector UInt8 hash.digestLength :=
  let inner := hash.digest (block.map (fun b => b ^^^ 0x36) ++ message)
  hash.digest (block.map (fun b => b ^^^ 0x5c) ++ inner.toList)

/-- The tag of a message under a key of any length. -/
def HashFunction.hmac (hash : HashFunction) (key message : Bytes) :
    Vector UInt8 hash.digestLength :=
  hash.blockTag (hash.blockKey key) message

/-! ## HKDF -/

/-- The output blocks of HKDF: each is the tag of the previous block, the context and a
counter byte. `index` is the counter of the next block. -/
def HashFunction.expandBlocks (hash : HashFunction) (key context : Bytes) :
    Nat → Nat → Bytes → Bytes
  | _, 0, _ => []
  | index, count + 1, previous =>
    let block := (hash.hmac key (previous ++ context ++ [UInt8.ofNat index])).toList
    block ++ hash.expandBlocks key context (index + 1) count block

/-- Extract-and-expand key derivation: `length` bytes from input key material, salt and
context, or nothing when more than 255 digests are asked for. -/
def HashFunction.hkdf (hash : HashFunction) (material salt context : Bytes) (length : Nat) :
    Option Bytes :=
  if length ≤ 255 * hash.digestLength then
    let key := (hash.hmac salt material).toList
    -- at most 255 blocks, so the counter fits a byte
    let count := (length + hash.digestLength - 1) / hash.digestLength
    some ((hash.expandBlocks key context 1 count []).take length)
  else none

theorem HashFunction.length_expandBlocks (hash : HashFunction) (key context : Bytes)
    (index count : Nat) (previous : Bytes) :
    (hash.expandBlocks key context index count previous).length = hash.digestLength * count := by
  induction count generalizing index previous with
  | zero => rfl
  | succ count ih =>
    simp only [HashFunction.expandBlocks, List.length_append, Vector.length_toList, ih,
      Nat.mul_succ]
    omega

/-- HKDF delivers unless more than 255 digests are asked for. -/
theorem HashFunction.hkdf_isSome (hash : HashFunction) (material salt context : Bytes)
    (length : Nat) :
    (hash.hkdf material salt context length).isSome = true ↔
      length ≤ 255 * hash.digestLength := by
  unfold HashFunction.hkdf
  split <;> simp_all

/-- Whatever HKDF delivers has the length asked for. -/
theorem HashFunction.length_of_hkdf (hash : HashFunction) (material salt context : Bytes)
    (length : Nat) (out : Bytes) (pos : 0 < hash.digestLength)
    (h : hash.hkdf material salt context length = some out) : out.length = length := by
  unfold HashFunction.hkdf at h
  split at h
  · simp only [Option.some.injEq] at h
    subst h
    simp only [List.length_take, HashFunction.length_expandBlocks]
    have := Nat.div_add_mod (length + hash.digestLength - 1) hash.digestLength
    have := Nat.mod_lt (length + hash.digestLength - 1) pos
    omega
  · simp at h

/-! ## PBKDF2 -/

/-- Applies the keyed hash `count` more times and adds up what comes out. The key is one
block. -/
def HashFunction.iterateTag (hash : HashFunction) (block : Bytes) : Nat → Bytes → Bytes → Bytes
  | 0, _, sum => sum
  | count + 1, tag, sum =>
    let next := (hash.blockTag block tag).toList
    hash.iterateTag block count next (Bytes.xor sum next)

theorem HashFunction.length_iterateTag (hash : HashFunction) (block tag sum : Bytes)
    (count : Nat) (h : sum.length = hash.digestLength) :
    (hash.iterateTag block count tag sum).length = hash.digestLength := by
  induction count generalizing tag sum with
  | zero => exact h
  | succ count ih => exact ih _ _ (by simp [h])

/-- The first block of PBKDF2 output, as long as one digest. No iterations count as one. -/
def HashFunction.pbkdf2 (hash : HashFunction) (password salt : Bytes) (iterations : Nat) :
    Vector UInt8 hash.digestLength :=
  -- a long password is hashed to one block only once
  let block := hash.blockKey password
  let first := (hash.blockTag block (salt ++ [0, 0, 0, 1])).toList
  Bytes.toVector (hash.iterateTag block (iterations - 1) first first)
    (hash.length_iterateTag block first first _ (by simp [first]))

end AgileSeal
