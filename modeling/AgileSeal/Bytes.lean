set_option autoImplicit false

/-! # Byte strings

A byte string is a list of bytes. This file holds the few operations every format and every
primitive shares: numbers written in a fixed count of bytes, least or most significant byte
first, cutting into pieces of one size, and the bitwise sum of two strings.

The length lemmas state that a number written in `count` bytes takes exactly `count` bytes
and that combining two strings keeps the length of the shorter. A number that was read is
written as the same bytes again (`ofNatLE_toNatLE`).
-/

namespace AgileSeal

/-- A byte string. -/
abbrev Bytes := List UInt8

namespace Bytes

/-! ## Numbers -/

/-- The `count` low bytes of `value`, least significant first. -/
def ofNatLE : Nat → Nat → Bytes
  | 0, _ => []
  | count + 1, value => UInt8.ofNat value :: ofNatLE count (value / 256)

/-- The number whose base-256 digits are the given bytes, least significant first. -/
def toNatLE : Bytes → Nat
  | [] => 0
  | b :: rest => b.toNat + 256 * toNatLE rest

/-- The `count` low bytes of `value`, most significant first. -/
def ofNatBE (count value : Nat) : Bytes := (ofNatLE count value).reverse

/-- The number whose base-256 digits are the given bytes, most significant first. -/
def toNatBE (bytes : Bytes) : Nat := bytes.foldl (fun acc b => acc * 256 + b.toNat) 0

@[simp] theorem length_ofNatLE (count value : Nat) : (ofNatLE count value).length = count := by
  induction count generalizing value with
  | zero => rfl
  | succ count ih => simp [ofNatLE, ih]

@[simp] theorem length_ofNatBE (count value : Nat) : (ofNatBE count value).length = count := by
  simp [ofNatBE]

/-- Bytes are what the number they stand for is written as. -/
theorem ofNatLE_toNatLE (bytes : Bytes) : ofNatLE bytes.length (toNatLE bytes) = bytes := by
  induction bytes with
  | nil => rfl
  | cons b rest ih =>
      have hb : b.toNat < 256 := b.toNat_lt
      have hlow : UInt8.ofNat (b.toNat + 256 * toNatLE rest) = b := by
        apply UInt8.toNat_inj.mp
        rw [UInt8.toNat_ofNat']
        omega
      have hhigh : (b.toNat + 256 * toNatLE rest) / 256 = toNatLE rest := by omega
      show UInt8.ofNat (b.toNat + 256 * toNatLE rest)
        :: ofNatLE rest.length ((b.toNat + 256 * toNatLE rest) / 256) = b :: rest
      rw [hlow, hhigh, ih]

/-! ## Cutting -/

/-- The first `count` pieces of `size` elements each; pieces past the end are short or
empty. -/
def pieces {α : Type} (size : Nat) : Nat → List α → List (List α)
  | 0, _ => []
  | count + 1, xs => xs.take size :: pieces size count (xs.drop size)

/-- Cuts a list into consecutive pieces of `size` elements. Only the last piece may be
shorter, and none is empty. -/
def chunks {α : Type} (size : Nat) (xs : List α) : List (List α) :=
  pieces size ((xs.length + size - 1) / size) xs

@[simp] theorem length_pieces {α : Type} (size count : Nat) (xs : List α) :
    (pieces size count xs).length = count := by
  induction count generalizing xs with
  | zero => rfl
  | succ count ih => simp [pieces, ih]

/-! ## Combining -/

/-- The bitwise sum of two byte strings, as long as the shorter of the two. -/
def xor (a b : Bytes) : Bytes := List.zipWith (fun x y => x ^^^ y) a b

@[simp] theorem length_xor (a b : Bytes) : (xor a b).length = min a.length b.length := by
  simp [xor]

/-- `count` bytes of zero. -/
def zeros (count : Nat) : Bytes := List.replicate count 0

@[simp] theorem length_zeros (count : Nat) : (zeros count).length = count := by
  simp [zeros]

/-- A byte string of known length as a vector. -/
def toVector {n : Nat} (bytes : Bytes) (h : bytes.length = n) : Vector UInt8 n :=
  ⟨bytes.toArray, by simpa using h⟩

@[simp] theorem toList_toVector {n : Nat} (bytes : Bytes) (h : bytes.length = n) :
    (toVector bytes h).toList = bytes := by
  simp [toVector]

end Bytes

end AgileSeal
