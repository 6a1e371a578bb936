import AgileSeal.Cipher.Aes

set_option autoImplicit false

/-! # Galois counter mode over AES-256

Keystream is the encryption of consecutive counters; the tag is a polynomial over the field
of `2 ^ 128` elements evaluated at the encrypted zero block, masked by the encryption of the
first counter. Nonces have twelve bytes, so the first counter is the nonce followed by one.
-/

namespace AgileSeal.Gcm

/-! ## The field -/

/-- The reduction polynomial in the field's bit order, highest bit first. -/
def reduction : Nat := 0xe1000000000000000000000000000000

/-- The product of two field elements; the most significant of the 128 bits is the constant
coefficient. -/
def multiply (x y : Nat) : Nat :=
  ((List.range 128).foldl (fun (acc : Nat × Nat) i =>
    let (sum, shifted) := acc
    -- a shift to the right multiplies by the generator
    (if x.testBit (127 - i) then sum ^^^ shifted else sum,
      if shifted.testBit 0 then (shifted >>> 1) ^^^ reduction else shifted >>> 1)) (0, y)).1

/-- Fills a byte string up with zeros to whole blocks of sixteen. -/
def padToBlock (bytes : Bytes) : Bytes :=
  bytes ++ Bytes.zeros ((16 - bytes.length % 16) % 16)

/-- What is hashed: associated data and ciphertext in whole blocks, then their lengths in
bits. -/
def hashInput (associated ciphertext : Bytes) : Bytes :=
  padToBlock associated ++ padToBlock ciphertext ++ Bytes.ofNatBE 8 (8 * associated.length) ++
    Bytes.ofNatBE 8 (8 * ciphertext.length)

/-- The hash of a byte string in whole blocks at the point `point`. -/
def ghash (point : Nat) (input : Bytes) : Nat :=
  (Bytes.chunks 16 input).foldl
    (fun acc piece => multiply (acc ^^^ Bytes.toNatBE piece) point) 0

/-! ## Counter mode -/

/-- The encryption of the counter block number `counter` of a nonce. -/
def counterBlock (keys : List Aes.Block) (nonce : Bytes) (counter : Nat) : Bytes :=
  (Aes.encrypt keys (Aes.toBlock (nonce ++ Bytes.ofNatBE 4 counter))).toList

/-- `count` encrypted counter blocks from number `counter` on. -/
def counterBlocks (keys : List Aes.Block) (nonce : Bytes) : Nat → Nat → Bytes
  | _, 0 => []
  | counter, count + 1 =>
    counterBlock keys nonce counter ++ counterBlocks keys nonce (counter + 1) count

/-- The first `length` bytes of keystream; counting starts at two. -/
def keystream (key nonce : Bytes) (length : Nat) : Bytes :=
  (counterBlocks (Aes.roundKeys key) nonce 2 ((length + 15) / 16)).take length

/-- The 16-byte tag of associated data and ciphertext. -/
def tag (key nonce associated ciphertext : Bytes) : Bytes :=
  let keys := Aes.roundKeys key
  -- counter one is kept for the tag, so keystream and mask never meet
  let point := Bytes.toNatBE (Aes.encrypt keys (Vector.replicate 16 0)).toList
  Bytes.xor (Bytes.ofNatBE 16 (ghash point (hashInput associated ciphertext)))
    (counterBlock keys nonce 1)

@[simp] theorem length_counterBlock (keys : List Aes.Block) (nonce : Bytes) (counter : Nat) :
    (counterBlock keys nonce counter).length = 16 := by
  simp [counterBlock]

theorem length_counterBlocks (keys : List Aes.Block) (nonce : Bytes) (counter count : Nat) :
    (counterBlocks keys nonce counter count).length = 16 * count := by
  induction count generalizing counter with
  | zero => rfl
  | succ count ih => rw [counterBlocks, List.length_append, length_counterBlock, ih]; omega

@[simp] theorem length_keystream (key nonce : Bytes) (length : Nat) :
    (keystream key nonce length).length = length := by
  simp only [keystream, List.length_take, length_counterBlocks]
  omega

@[simp] theorem length_tag (key nonce associated ciphertext : Bytes) :
    (tag key nonce associated ciphertext).length = 16 := by
  simp [tag]

end AgileSeal.Gcm
