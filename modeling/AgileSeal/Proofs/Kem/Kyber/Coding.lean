import AgileSeal.Kem.Kyber.Encapsulation
import AgileSeal.Proofs.Packed

set_option autoImplicit false

/-! # Polynomials survive their bytes

A polynomial that is written and read again has all its coefficients written and read one by one
(`Poly.decode_encode`), and so has a vector of polynomials, whatever stands behind it
(`decodeVector_encodeVector`). Keys are written without loss; what a ciphertext loses is rounding,
so decryption gives back what encryption has made up to the rounding of two polynomials
(`decrypt_encrypt_eq`).
-/

namespace AgileSeal.Kyber

namespace Poly

variable {width : Nat} {digit : Coefficient → Nat}

/-! ## One polynomial -/

/-- Numbers packed into one are its digits. -/
theorem pack_eq_gather {values : List Nat} (h : ∀ v ∈ values, v < 2 ^ width) {n : Nat}
    (hn : values.length ≤ n) :
    pack width values = Packed.gather width (fun i => values.getD i 0) n := by
  induction values generalizing n with
  | nil => exact (Packed.gather_zero width n).symm
  | cons v rest ih =>
      cases n with
      | zero => exact absurd hn (Nat.not_succ_le_zero _)
      | succ n =>
          have hrest := ih (fun u hu => h u (List.mem_cons_of_mem _ hu)) (Nat.le_of_succ_le_succ hn)
          calc pack width (v :: rest)
              = (pack width rest <<< width) ||| v := rfl
            _ = (pack width rest <<< width) + v :=
                (Nat.shiftLeft_add_eq_or_of_lt (h v List.mem_cons_self) _).symm
            _ = v + 2 ^ width * Packed.gather width (fun i => rest.getD i 0) n := by
                rw [hrest, Nat.shiftLeft_eq, Nat.mul_comm, Nat.add_comm]
            _ = Packed.gather width (fun i => (v :: rest).getD i 0) (n + 1) :=
                (Packed.gather_cons width (fun i => (v :: rest).getD i 0) n).symm

/-- The bytes of a polynomial are the digits of its coefficients. -/
theorem encode_eq (h : ∀ c, digit c < 2 ^ width) (a : Poly) :
    encode width digit a = Bytes.ofNatLE (32 * width) (Packed.ofVector width digit a) := by
  have hlist : a.toList.map digit = (List.range 256).map fun i => digit (cyclic a i) := by
    rw [toList_eq_map_cyclic, List.map_map]
    rfl
  have hdigits : ∀ v ∈ a.toList.map digit, v < 2 ^ width := by
    intro v hv
    obtain ⟨c, -, rfl⟩ := List.mem_map.mp hv
    exact h c
  have hlen : (a.toList.map digit).length ≤ 256 :=
    Nat.le_of_eq (by rw [List.length_map, Vector.length_toList])
  rw [encode, pack_eq_gather hdigits hlen, hlist]
  refine congrArg (Bytes.ofNatLE _) (Packed.gather_congr fun i hi => ?_)
  rw [List.getD_eq_getElem?_getD, List.getElem?_map, List.getElem?_range hi]
  rfl

theorem cyclic_decode (width : Nat) (value : Nat → Coefficient) (bytes : Bytes) {i : Nat}
    (hi : i < 256) : cyclic (decode width value bytes) i
      = value (Packed.fetch width (Bytes.toNatLE bytes) i) := by
  rw [decode, cyclic_map, unpack, cyclic_ofFn _ hi, Nat.shiftLeft_eq, Nat.one_mul]
  rfl

/-- A polynomial that is written and read keeps what its coefficients keep. -/
theorem decode_encode (h : ∀ c, digit c < 2 ^ width) (value : Nat → Coefficient) (a : Poly) :
    decode width value (encode width digit a) = a.map fun c => value (digit c) := by
  have hlt : Packed.ofVector width digit a < 256 ^ (32 * width) := by
    have hbits : width * 256 = 8 * (32 * width) := by omega
    calc Packed.ofVector width digit a
        < 2 ^ (width * 256) := Packed.gather_lt fun i _ => h (cyclic a i)
      _ = 2 ^ (8 * (32 * width)) := by rw [hbits]
      _ = 256 ^ (32 * width) := Nat.pow_mul 2 8 _
  refine ext_cyclic fun i hi => ?_
  rw [cyclic_decode _ _ _ hi, encode_eq h, Bytes.toNatLE_ofNatLE hlt,
    Packed.fetch_ofVector h a hi, cyclic_map]

end Poly

/-! ## Vectors of polynomials -/

/-- A piece of a string of equal pieces. -/
theorem take_drop_flatMap {α : Type} {size : Nat} {f : α → Bytes} (h : ∀ a, (f a).length = size)
    (xs : List α) (rest : Bytes) {i : Nat} (hi : i < xs.length) :
    ((xs.flatMap f ++ rest).drop (size * i)).take size = f xs[i] := by
  induction xs generalizing i with
  | nil => exact absurd hi (Nat.not_lt_zero i)
  | cons x xs ih =>
      rw [List.flatMap_cons, List.append_assoc]
      cases i with
      | zero =>
          rw [Nat.mul_zero, List.drop_zero, List.take_left' (h x)]
          rfl
      | succ i =>
          rw [Nat.mul_succ, Nat.add_comm, ← List.drop_drop, List.drop_left' (h x),
            ih (Nat.lt_of_succ_lt_succ hi)]
          rfl

/-- A vector that is written and read keeps what its coefficients keep. -/
theorem decodeVector_encodeVector {width : Nat} {digit : Coefficient → Nat}
    (h : ∀ c, digit c < 2 ^ width) (value : Nat → Coefficient) (a : PolyVec) (rest : Bytes) :
    decodeVector width value (encodeVector width digit a ++ rest)
      = a.map fun p => p.map fun c => value (digit c) := by
  refine ext_cyclic fun i hi => ?_
  have hlen : i < a.toList.length := by rwa [Vector.length_toList]
  rw [decodeVector, cyclic_ofFn _ hi, encodeVector,
    take_drop_flatMap (Poly.length_encode width digit) a.toList rest hlen, Poly.decode_encode h,
    cyclic_map, cyclic_eq_get a hi]
  rfl

/-! ## The way of a message -/

/-- A coefficient after it has been written with `width` bits. -/
def rounded (width : Nat) (c : Coefficient) : Coefficient :=
  Poly.decompress width (Poly.compress width c)

/-- The noisy products in a public key. -/
def products (seed : Bytes) : PolyVec :=
  (PolyVec.product (matrix (expandSeed seed).1) (secretVector seed)).add
    (noiseVector (expandSeed seed).2 3).transform

/-- The vector in a ciphertext, before it is rounded. -/
def mask (matrixSeed randomness : Bytes) : PolyVec :=
  (PolyVec.product (transposedMatrix matrixSeed)
    (noiseVector randomness 0).transform).untransform.add (noiseVector randomness 3)

/-- The polynomial in a ciphertext, before it is rounded. -/
def masked (products : PolyVec) (randomness message : Bytes) : Poly :=
  ((PolyVec.inner products (noiseVector randomness 0).transform).untransform.add
    (noise randomness 6)).add (Poly.decode 1 (Poly.decompress 1) message)

/-- What decryption rounds to the message. -/
def recovered (seed message randomness : Bytes) : Poly :=
  let u : PolyVec := (mask (expandSeed seed).1 randomness).map fun p => p.map (rounded 10)
  Poly.sub ((masked (products seed) randomness message).map (rounded 4))
    (PolyVec.inner (secretVector seed) u.transform).untransform

theorem publicKey_eq (seed : Bytes) :
    publicKey seed = encodeVector 12 Fin.val (products seed) ++ (expandSeed seed).1 := rfl

theorem compress_lt (width : Nat) (c : Coefficient) : Poly.compress width c < 2 ^ width := by
  rw [Poly.compress, Nat.shiftLeft_eq 1, Nat.one_mul]
  exact Nat.mod_lt _ (Nat.two_pow_pos width)

/-- Twelve bits hold a coefficient. -/
theorem val_lt (c : Coefficient) : c.val < 2 ^ 12 := Nat.lt_trans c.isLt (by decide)

/-- What is written without loss is read back. -/
theorem decodeVector_val (a : PolyVec) (rest : Bytes) :
    decodeVector 12 (Fin.ofNat modulus) (encodeVector 12 Fin.val a ++ rest) = a := by
  have hval (c : Coefficient) : Fin.ofNat modulus c.val = c := Fin.ofNat_val_eq_self c
  rw [decodeVector_encodeVector val_lt]
  refine ext_cyclic fun i _ => ext_cyclic fun j _ => ?_
  rw [cyclic_map, cyclic_map, hval]

/-- Encryption finds the vector and the seed in the key. -/
theorem encrypt_publicKey (seed message randomness : Bytes) :
    encrypt (publicKey seed) message randomness
      = encodeVector 10 (Poly.compress 10) (mask (expandSeed seed).1 randomness)
        ++ Poly.encode 4 (Poly.compress 4) (masked (products seed) randomness message) := by
  have hseed : (encodeVector 12 Fin.val (products seed) ++ (expandSeed seed).1).drop 1152
      = (expandSeed seed).1 := List.drop_left' (length_encodeVector 12 Fin.val _)
  rw [encrypt, publicKey_eq, hseed, decodeVector_val]
  rfl

/-- **Decryption undoes encryption up to rounding**: keys and ciphertext drop out. -/
theorem decrypt_encrypt_eq (seed message randomness : Bytes) :
    decrypt (secretKey seed) (encrypt (publicKey seed) message randomness)
      = Poly.encode 1 (Poly.compress 1) (recovered seed message randomness) := by
  have hsecret : decodeVector 12 (Fin.ofNat modulus) (secretKey seed) = secretVector seed := by
    rw [secretKey, ← List.append_nil (encodeVector _ _ _), decodeVector_val]
  have hsecond (u : PolyVec) (v : Bytes) :
      (encodeVector 10 (Poly.compress 10) u ++ v).drop 960 = v :=
    List.drop_left' (length_encodeVector 10 _ u)
  rw [decrypt, encrypt_publicKey, hsecret, hsecond, Poly.decode_encode (compress_lt 4),
    decodeVector_encodeVector (compress_lt 10)]
  rfl

/-! ## Encapsulation -/

/-- The message that an encapsulation encrypts. -/
def messageOf (random : Bytes) : Bytes := (Keccak.sha3x256 random).toList

/-- The first key and the randomness that belong to a message and a public key. -/
def expandMessage (publicKey message : Bytes) : Bytes :=
  (Keccak.sha3x512 (message ++ (Keccak.sha3x256 publicKey).toList)).toList

theorem encapsulate_eq (publicKey random : Bytes) : encapsulate publicKey random
    = (encrypt publicKey (messageOf random) ((expandMessage publicKey (messageOf random)).drop 32),
      sharedSecret ((expandMessage publicKey (messageOf random)).take 32)
        (encrypt publicKey (messageOf random)
          ((expandMessage publicKey (messageOf random)).drop 32))) := by
  rw [encapsulate]
  rfl

/-- The parts of a private key are found in it. -/
theorem decapsulate_keyPair (seed rejection ciphertext : Bytes) (message : Bytes)
    (h : decrypt (secretKey seed) ciphertext = message) :
    decapsulate (keyPair seed rejection).privateKey ciphertext
      = sharedSecret (if encrypt (publicKey seed) message
            ((expandMessage (publicKey seed) message).drop 32) == ciphertext
          then (expandMessage (publicKey seed) message).take 32 else rejection) ciphertext := by
  have hkey : (keyPair seed rejection).privateKey = secretKey seed ++ (publicKey seed
      ++ ((Keccak.sha3x256 (publicKey seed)).toList ++ rejection)) := by
    rw [← List.append_assoc, ← List.append_assoc]
    rfl
  have hhash : (Keccak.sha3x256 (publicKey seed)).toList.length = 32 := Vector.length_toList
  have hpub (rest : Bytes) :
      ((secretKey seed ++ (publicKey seed ++ rest)).drop 1152).take 1184 = publicKey seed := by
    rw [List.drop_left' (length_secretKey seed), List.take_left' (length_publicKey seed)]
  have hbehind (n : Nat) (rest : Bytes) :
      (secretKey seed ++ (publicKey seed ++ rest)).drop (1152 + (1184 + n)) = rest.drop n := by
    rw [← List.drop_drop, List.drop_left' (length_secretKey seed), ← List.drop_drop,
      List.drop_left' (length_publicKey seed)]
  rw [decapsulate, hkey, List.take_left' (length_secretKey seed), h, hpub, hbehind 0, hbehind 32,
    List.drop_zero, List.take_left' hhash, List.drop_left' hhash]
  rfl

/-- **Decapsulation finds the secret** if decryption finds the message. -/
theorem decapsulate_encapsulate {seed random : Bytes}
    (h : decrypt (secretKey seed) (encrypt (publicKey seed) (messageOf random)
      ((expandMessage (publicKey seed) (messageOf random)).drop 32)) = messageOf random)
    (rejection : Bytes) :
    decapsulate (keyPair seed rejection).privateKey (encapsulate (publicKey seed) random).1
      = (encapsulate (publicKey seed) random).2 := by
  rw [encapsulate_eq, decapsulate_keyPair _ _ _ _ h, beq_self_eq_true, if_pos rfl]

end AgileSeal.Kyber
