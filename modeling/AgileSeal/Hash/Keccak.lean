import AgileSeal.Cyclic
import AgileSeal.Hash.Function

set_option autoImplicit false

/-! # The Keccak sponge

The permutation of 25 lanes of 64 bits, the sponge over it, and the functions the lattice
key encapsulation needs: SHA3-256, SHA3-512 and the two extendable-output functions
SHAKE128 and SHAKE256.

Lane `x + 5 * y` stands at column `x` and row `y`. A sponge absorbs the padded message
`rate` bytes at a time and is then squeezed `rate` bytes at a time; `length_squeeze` states
that squeezing `count` bytes gives `count` bytes, whatever the rate.
-/

namespace AgileSeal.Keccak

/-- The 25 lanes of the permutation. -/
abbrev State := Vector UInt64 25

/-- Rotation of a lane to the left. -/
@[inline] def rotateLeft (x n : UInt64) : UInt64 := (x <<< n) ||| (x >>> (64 - n))

/-! ## The permutation -/

/-- Adds to every lane the parities of two neighbouring columns. -/
def theta (s : State) : State :=
  let parity : Vector UInt64 5 := Vector.ofFn fun x =>
    cyclic s x ^^^ cyclic s (x + 5) ^^^ cyclic s (x + 10) ^^^ cyclic s (x + 15) ^^^
      cyclic s (x + 20)
  let effect : Vector UInt64 5 := Vector.ofFn fun x =>
    cyclic parity (x + 4) ^^^ rotateLeft (cyclic parity (x + 1)) 1
  Vector.ofFn fun i => s.get i ^^^ cyclic effect i

/-- How far each lane is rotated. -/
def offsets : Vector UInt64 25 := #v[
  0, 1, 62, 28, 27, 36, 44, 6, 55, 20, 3, 10, 43, 25, 39, 41, 45, 15, 21, 8, 18, 2, 61, 56, 14]

/-- Rotates every lane and moves it: the lane at column `x` and row `y` comes from column
`x + 3 * y` and row `x`. -/
def rhoPi (s : State) : State :=
  Vector.ofFn fun i =>
    let x := i.val % 5
    let y := i.val / 5
    let source := (x + 3 * y) % 5 + 5 * x
    rotateLeft (cyclic s source) (cyclic offsets source)

/-- Combines each lane with the next two lanes of its row. -/
def chi (s : State) : State :=
  Vector.ofFn fun i =>
    let x := i.val % 5
    let row := 5 * (i.val / 5)
    s.get i ^^^ ((~~~cyclic s ((x + 1) % 5 + row)) &&& cyclic s ((x + 2) % 5 + row))

/-- The constants added to the first lane, one per round. -/
def roundConstants : List UInt64 := [
  0x0000000000000001, 0x0000000000008082, 0x800000000000808a, 0x8000000080008000,
  0x000000000000808b, 0x0000000080000001, 0x8000000080008081, 0x8000000000008009,
  0x000000000000008a, 0x0000000000000088, 0x0000000080008009, 0x000000008000000a,
  0x000000008000808b, 0x800000000000008b, 0x8000000000008089, 0x8000000000008003,
  0x8000000000008002, 0x8000000000000080, 0x000000000000800a, 0x800000008000000a,
  0x8000000080008081, 0x8000000000008080, 0x0000000080000001, 0x8000000080008008]

/-- One round. -/
def round (s : State) (constant : UInt64) : State :=
  let mixed := chi (rhoPi (theta s))
  mixed.set 0 (cyclic mixed 0 ^^^ constant)

/-- The permutation: 24 rounds. -/
def permute (s : State) : State := roundConstants.foldl round s

/-! ## The sponge -/

/-- The empty sponge. -/
def start : State := Vector.replicate 25 0

/-- Adds a block to the front of the state. -/
def addBlock (s : State) (block : Bytes) : State :=
  let lanes := ((Bytes.chunks 8 block).map fun b => UInt64.ofNat (Bytes.toNatLE b)).toArray
  Vector.ofFn fun i => s.get i ^^^ lanes.getD i.val 0

/-- The padding that brings a message of `length` bytes to whole blocks of `rate` bytes: the
domain suffix first, a set top bit in the last byte, zeros between. -/
def padding (rate : Nat) (suffix : UInt8) (length : Nat) : Bytes :=
  match rate - length % rate with
  -- one free byte holds both the suffix and the top bit
  | 0 | 1 => [suffix ||| 0x80]
  | count + 2 => suffix :: Bytes.zeros count ++ [0x80]

/-- The sponge after a whole message. -/
def absorb (rate : Nat) (suffix : UInt8) (message : Bytes) : State :=
  (Bytes.chunks rate (message ++ padding rate suffix message.length)).foldl
    (fun s block => permute (addBlock s block)) start

/-- All bytes of the state. -/
def toBytes (s : State) : Bytes := s.toList.flatMap fun lane => Bytes.ofNatLE 8 lane.toNat

/-- The next `count` blocks of output, each `rate` bytes. -/
def squeezeBlocks (rate : Nat) : Nat → State → Bytes
  | 0, _ => []
  | 1, s => (toBytes s).take rate
  | count + 2, s => (toBytes s).take rate ++ squeezeBlocks rate (count + 1) (permute s)

/-- The next `count` bytes of output from a sponge of positive rate. -/
def squeeze (rate count : Nat) (s : State) : Bytes :=
  (squeezeBlocks rate ((count + rate - 1) / rate) s).take count

theorem length_flatMap_const {α : Type} (n : Nat) (f : α → Bytes) (h : ∀ a, (f a).length = n)
    (xs : List α) : (xs.flatMap f).length = n * xs.length := by
  induction xs with
  | nil => simp
  | cons x xs ih => rw [List.flatMap_cons, List.length_append, h, ih, List.length_cons,
      Nat.mul_succ, Nat.add_comm]

@[simp] theorem length_toBytes (s : State) : (toBytes s).length = 200 := by
  simp [toBytes, length_flatMap_const 8]

theorem length_squeezeBlocks (rate count : Nat) (h : rate ≤ 200) (s : State) :
    (squeezeBlocks rate count s).length = rate * count := by
  fun_induction squeezeBlocks rate count s with
  | case1 => rfl
  | case2 s => simp only [List.length_take, length_toBytes]; omega
  | case3 count s ih =>
    simp only [List.length_append, List.length_take, length_toBytes, ih, Nat.mul_succ]
    omega

theorem length_squeeze (rate count : Nat) (pos : 0 < rate) (h : rate ≤ 200) (s : State) :
    (squeeze rate count s).length = count := by
  simp only [squeeze, List.length_take, length_squeezeBlocks rate _ h]
  have := Nat.div_add_mod (count + rate - 1) rate
  have := Nat.mod_lt (count + rate - 1) pos
  omega

/-! ## The functions used -/

/-- SHA3-256. -/
def sha3x256 (message : Bytes) : Vector UInt8 32 :=
  Bytes.toVector (squeeze 136 32 (absorb 136 0x06 message))
    (length_squeeze 136 32 (by decide) (by decide) _)

/-- SHA3-512. -/
def sha3x512 (message : Bytes) : Vector UInt8 64 :=
  Bytes.toVector (squeeze 72 64 (absorb 72 0x06 message))
    (length_squeeze 72 64 (by decide) (by decide) _)

/-- The first `count` bytes of SHAKE256. -/
def shake256 (count : Nat) (message : Bytes) : Vector UInt8 count :=
  Bytes.toVector (squeeze 136 count (absorb 136 0x1f message))
    (length_squeeze 136 count (by decide) (by decide) _)

/-- The block size of SHAKE128. -/
def shake128Rate : Nat := 168

/-- SHAKE128 after absorbing a message, ready to be squeezed block by block. -/
def shake128 (message : Bytes) : State := absorb shake128Rate 0x1f message

end AgileSeal.Keccak
