import AgileSeal.Bytes
import Mathlib.Algebra.Group.Nat.Defs

set_option autoImplicit false

/-! # Byte strings as numbers

Bytes are the digits of a number to the base 256. A number that fits its bytes is read back
(`toNatLE_ofNatLE`); taking and dropping bytes is dividing by a power of 256, both for the bytes
of a number and for the number of bytes. A piece of a string is what stands between two places
(`getD_chunks`).
-/

namespace AgileSeal.Bytes

/-! ## Numbers -/

/-- A number read from `n` bytes is below `256 ^ n`. -/
theorem toNatLE_lt (bytes : Bytes) : toNatLE bytes < 256 ^ bytes.length := by
  induction bytes with
  | nil => exact Nat.one_pos
  | cons b rest ih =>
      have hb : b.toNat < 256 := b.toNat_lt
      rw [List.length_cons, Nat.pow_succ]
      show b.toNat + 256 * toNatLE rest < _
      omega

/-- A number that fits its bytes is read back. -/
theorem toNatLE_append (a b : Bytes) :
    toNatLE (a ++ b) = toNatLE a + 256 ^ a.length * toNatLE b := by
  induction a with
  | nil =>
      rw [List.nil_append, List.length_nil, Nat.pow_zero, Nat.one_mul]
      exact (Nat.zero_add _).symm
  | cons x a ih =>
      show x.toNat + 256 * toNatLE (a ++ b) = x.toNat + 256 * toNatLE a + _
      rw [ih, List.length_cons, Nat.pow_succ']
      rw [Nat.mul_add, Nat.mul_assoc, Nat.add_assoc]

theorem toNatLE_ofNatLE {count value : Nat} (h : value < 256 ^ count) :
    toNatLE (ofNatLE count value) = value := by
  induction count generalizing value with
  | zero =>
      rw [Nat.pow_zero] at h
      show 0 = value
      omega
  | succ count ih =>
      have hq : value / 256 < 256 ^ count := by
        rw [Nat.pow_succ] at h
        omega
      have hb : (UInt8.ofNat value).toNat = value % 256 := UInt8.toNat_ofNat'
      show (UInt8.ofNat value).toNat + 256 * toNatLE (ofNatLE count (value / 256)) = value
      rw [ih hq, hb]
      omega

/-- The bytes of a number, cut in two. -/
theorem ofNatLE_add (a b value : Nat) :
    ofNatLE (a + b) value = ofNatLE a value ++ ofNatLE b (value / 256 ^ a) := by
  induction a generalizing value with
  | zero => rw [Nat.zero_add, Nat.pow_zero, Nat.div_one]; rfl
  | succ a ih =>
      have hcount : a + 1 + b = a + b + 1 := by omega
      have hpow : 256 ^ (a + 1) = 256 * 256 ^ a := by rw [Nat.pow_succ, Nat.mul_comm]
      rw [hcount, hpow, ← Nat.div_div_eq_div_mul]
      show UInt8.ofNat value :: ofNatLE (a + b) (value / 256) = _
      rw [ih]
      rfl

theorem take_ofNatLE {m n : Nat} (h : m ≤ n) (value : Nat) :
    (ofNatLE n value).take m = ofNatLE m value := by
  obtain ⟨k, rfl⟩ := Nat.exists_eq_add_of_le h
  rw [ofNatLE_add, List.take_left' (length_ofNatLE m value)]

theorem drop_ofNatLE {m n : Nat} (h : m ≤ n) (value : Nat) :
    (ofNatLE n value).drop m = ofNatLE (n - m) (value / 256 ^ m) := by
  obtain ⟨k, rfl⟩ := Nat.exists_eq_add_of_le h
  rw [ofNatLE_add, List.drop_left' (length_ofNatLE m value), Nat.add_sub_cancel_left]

/-- Bytes do not tell what is above them. -/
theorem ofNatLE_mod (count value : Nat) : ofNatLE count (value % 256 ^ count)
    = ofNatLE count value := by
  induction count generalizing value with
  | zero => rfl
  | succ count ih =>
      have hhigh : value % 256 ^ (count + 1) / 256 = value / 256 % 256 ^ count := by
        rw [Nat.pow_succ, Nat.mul_comm, Nat.mod_mul_right_div_self]
      have hlow : UInt8.ofNat (value % 256 ^ (count + 1)) = UInt8.ofNat value := by
        apply UInt8.toNat_inj.mp
        rw [UInt8.toNat_ofNat', UInt8.toNat_ofNat', Nat.pow_succ, Nat.mul_comm]
        exact Nat.mod_mul_right_mod value 256 (256 ^ count)
      show UInt8.ofNat (value % 256 ^ (count + 1))
        :: ofNatLE count (value % 256 ^ (count + 1) / 256) = _
      rw [hlow, hhigh, ih]
      rfl

theorem toNatLE_ofNatLE_mod (count value : Nat) :
    toNatLE (ofNatLE count value) = value % 256 ^ count := by
  rw [← ofNatLE_mod]
  exact toNatLE_ofNatLE (Nat.mod_lt _ (Nat.pow_pos (by decide)))

theorem toNatLE_drop (bytes : Bytes) (k : Nat) :
    toNatLE (bytes.drop k) = toNatLE bytes / 256 ^ k := by
  induction k generalizing bytes with
  | zero => rw [List.drop_zero, Nat.pow_zero, Nat.div_one]
  | succ k ih =>
      cases bytes with
      | nil => exact (Nat.zero_div _).symm
      | cons b rest =>
          have hb : b.toNat < 256 := b.toNat_lt
          have hrest : (b.toNat + 256 * toNatLE rest) / 256 = toNatLE rest := by omega
          rw [List.drop_succ_cons, ih, Nat.pow_succ, Nat.mul_comm, ← Nat.div_div_eq_div_mul]
          show _ = (b.toNat + 256 * toNatLE rest) / 256 / 256 ^ k
          rw [hrest]

theorem toNatLE_take (bytes : Bytes) (k : Nat) :
    toNatLE (bytes.take k) = toNatLE bytes % 256 ^ k := by
  induction k generalizing bytes with
  | zero => rw [List.take_zero, Nat.pow_zero, Nat.mod_one]; rfl
  | succ k ih =>
      cases bytes with
      | nil => exact (Nat.zero_mod _).symm
      | cons b rest =>
          have hb : b.toNat < 256 := b.toNat_lt
          have hlow : (b.toNat + 256 * toNatLE rest) % 256 = b.toNat := by omega
          have hrest : (b.toNat + 256 * toNatLE rest) / 256 = toNatLE rest := by omega
          show b.toNat + 256 * toNatLE (rest.take k) = (b.toNat + 256 * toNatLE rest) % _
          rw [ih, Nat.pow_succ, Nat.mul_comm (256 ^ k), Nat.mod_mul, hlow, hrest]

/-! ## Pieces -/

theorem getD_pieces {α : Type} (size count : Nat) (xs : List α) {i : Nat} (hi : i < count) :
    (pieces size count xs).getD i [] = (xs.drop (size * i)).take size := by
  induction i generalizing count xs with
  | zero =>
      cases count with
      | zero => omega
      | succ count => rfl
  | succ i ih =>
      cases count with
      | zero => omega
      | succ count =>
          rw [pieces, List.getD_cons_succ, ih count _ (Nat.lt_of_succ_lt_succ hi), List.drop_drop,
            Nat.mul_succ, Nat.add_comm]

/-- The pieces of a string, of which those past the end are empty. -/
theorem getD_chunks {α : Type} {size : Nat} (hsize : 0 < size) (xs : List α) (i : Nat) :
    (chunks size xs).getD i [] = (xs.drop (size * i)).take size := by
  by_cases hi : i < (xs.length + size - 1) / size
  · exact getD_pieces size _ xs hi
  · have hlen : xs.length ≤ size * i := by
      have hdiv : (xs.length + size - 1) / size < i + 1 := by omega
      rw [Nat.div_lt_iff_lt_mul hsize, Nat.succ_mul, Nat.mul_comm] at hdiv
      omega
    have hend : (chunks size xs).length ≤ i := by
      rw [chunks, length_pieces]
      omega
    rw [List.drop_of_length_le hlen, List.getD_eq_getElem?_getD, List.getElem?_eq_none hend,
      List.take_nil]
    rfl

end AgileSeal.Bytes
