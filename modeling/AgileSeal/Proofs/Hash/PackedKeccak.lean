import AgileSeal.Hash.Keccak
import AgileSeal.Proofs.Packed

set_option autoImplicit false

/-! # The Keccak sponge on one number

The 25 lanes of a state in one number of 1600 bits, and the permutation on such numbers, step by
step beside the permutation on lanes (`ofWords_permute`). Absorbing a message is the same on both
sides (`ofWords_absorb`), and bytes that are squeezed from one block are the low bytes of the number
(`squeeze_eq`), so the functions of this family can be evaluated on numbers alone.
-/

namespace AgileSeal.Keccak

open AgileSeal.Packed (ofWords fetch_ofWords fetch_mod_ofWords ofNatLE_ofWords toNat_getD_words)

/-! ## The permutation -/

namespace Packed

open AgileSeal.Packed

/-- Rotation of a lane to the left. -/
def rotateLeft (x n : Nat) : Nat :=
  Nat.lor (Nat.mod (Nat.shiftLeft x n) 0x10000000000000000)
    (Nat.shiftRight x (Nat.mod (Nat.sub 64 n) 64))

/-- The parity of a column. -/
def parity (s x : Nat) : Nat :=
  Nat.xor (Nat.xor (Nat.xor (Nat.xor (fetch 64 s x) (fetch 64 s (Nat.add x 5)))
    (fetch 64 s (Nat.add x 10))) (fetch 64 s (Nat.add x 15))) (fetch 64 s (Nat.add x 20))

/-- What is added to the lanes of a column, from the parities of all columns. -/
def effect (parities x : Nat) : Nat :=
  Nat.xor (fetch 64 parities (Nat.mod (Nat.add x 4) 5))
    (rotateLeft (fetch 64 parities (Nat.mod (Nat.add x 1) 5)) 1)

/-- The sum of every lane with the value that belongs to its column. -/
def addColumns (s effects : Nat) : Nat :=
  gather 64 (fun i => Nat.xor (fetch 64 s i) (fetch 64 effects (Nat.mod i 5))) 25

def theta (s : Nat) : Nat := addColumns s (gather 64 (effect (gather 64 (parity s) 5)) 5)

/-- The table of rotations. -/
def offsets : Nat := gather 8 (fun i => (cyclic Keccak.offsets i).toNat) 25

/-- The place that a lane comes from. -/
def source (i : Nat) : Nat :=
  Nat.add (Nat.mod (Nat.add (Nat.mod i 5) (Nat.mul 3 (Nat.div i 5))) 5) (Nat.mul 5 (Nat.mod i 5))

def rhoPi (s : Nat) : Nat :=
  gather 64 (fun i => rotateLeft (fetch 64 s (source i)) (fetch 8 offsets (source i))) 25

/-- The place of a lane `k` further in the same row. -/
def along (k i : Nat) : Nat := Nat.add (Nat.mod (Nat.add i k) 5) (Nat.mul 5 (Nat.div i 5))

def chi (s : Nat) : Nat :=
  gather 64 (fun i => Nat.xor (fetch 64 s i)
    (Nat.land (Nat.sub 0xffffffffffffffff (fetch 64 s (along 1 i))) (fetch 64 s (along 2 i)))) 25

def round (s constant : Nat) : Nat :=
  let mixed := chi (rhoPi (theta s))
  gather 64 (fun i => bif Nat.beq i 0 then Nat.xor (fetch 64 mixed 0) constant
    else fetch 64 mixed i) 25

def permute (s : Nat) : Nat := (roundConstants.map UInt64.toNat).foldl round s

/-- Adds a block to the front of the state. -/
def addBlock (s : Nat) (block : Bytes) : Nat :=
  gather 64 (fun i => Nat.xor (fetch 64 s i) (fetch 64 (Bytes.toNatLE block) i)) 25

/-- The sponge after a whole message. -/
def absorb (rate : Nat) (suffix : UInt8) (message : Bytes) : Nat :=
  (Bytes.chunks rate (message ++ padding rate suffix message.length)).foldl
    (fun s block => permute (addBlock s block)) 0

end Packed

theorem toNat_rotateLeft (x n : UInt64) (h : n.toNat < 64) :
    (rotateLeft x n).toNat = Packed.rotateLeft x.toNat n.toNat := by
  have hle : n ≤ 64 := by
    rw [UInt64.le_iff_toNat_le]
    exact Nat.le_of_lt h
  have hback : (64 - n).toNat = 64 - n.toNat := UInt64.toNat_sub_of_le _ _ hle
  rw [rotateLeft, UInt64.toNat_or, UInt64.toNat_shiftLeft, UInt64.toNat_shiftRight, hback,
    Nat.mod_eq_of_lt h]
  rfl

/-- The parities of all columns. -/
theorem ofWords_parity (s : State) : ofWords (n := 4) (Vector.ofFn fun x => cyclic s x ^^^
    cyclic s (x + 5) ^^^ cyclic s (x + 10) ^^^ cyclic s (x + 15) ^^^ cyclic s (x + 20))
      = Packed.gather 64 (Packed.parity (ofWords s)) 5 := by
  refine Packed.ofVector_ofFn fun x hx => ?_
  have hplace (k : Nat) (hk : k ≤ 20) : Packed.fetch 64 (ofWords s) (Nat.add x k)
      = (cyclic s (x + k)).toNat :=
    fetch_ofWords s (Nat.lt_of_lt_of_le (Nat.add_lt_add_of_lt_of_le hx hk) (by decide))
  rw [Packed.parity, hplace 5 (by decide), hplace 10 (by decide), hplace 15 (by decide),
    hplace 20 (by decide), fetch_ofWords s (Nat.lt_trans hx (by decide))]
  simp only [UInt64.toNat_xor]
  rfl

theorem ofWords_effect (parities : Vector UInt64 5) : ofWords (n := 4) (Vector.ofFn fun x =>
    cyclic parities (x + 4) ^^^ rotateLeft (cyclic parities (x + 1)) 1)
      = Packed.gather 64 (Packed.effect (ofWords parities)) 5 := by
  refine Packed.ofVector_ofFn fun x _ => ?_
  have hplace (k : Nat) : Packed.fetch 64 (ofWords parities) (Nat.mod (Nat.add x k) 5)
      = (cyclic parities (x + k)).toNat := fetch_mod_ofWords parities (x + k)
  rw [Packed.effect, hplace 4, hplace 1, UInt64.toNat_xor, toNat_rotateLeft _ 1 (by decide)]
  rfl

theorem ofWords_addColumns (s : State) (effects : Vector UInt64 5) :
    ofWords (n := 24) (Vector.ofFn fun i => s.get i ^^^ cyclic effects i)
      = Packed.addColumns (ofWords s) (ofWords effects) := by
  refine Packed.ofVector_ofFn fun i hi => ?_
  have heffect : Packed.fetch 64 (ofWords effects) (Nat.mod i 5) = (cyclic effects i).toNat :=
    fetch_mod_ofWords effects i
  rw [← cyclic_eq_get s hi, fetch_ofWords s hi, heffect, UInt64.toNat_xor]
  rfl

theorem ofWords_theta (s : State) : ofWords (theta s) = Packed.theta (ofWords s) := by
  rw [Packed.theta, ← ofWords_parity, ← ofWords_effect, ← ofWords_addColumns]
  rfl

theorem ofWords_rhoPi (s : State) : ofWords (rhoPi s) = Packed.rhoPi (ofWords s) := by
  have hfew : ∀ i, i < 25 → (cyclic offsets i).toNat < 64 := by decide
  refine Packed.ofVector_ofFn fun i hi => ?_
  have hsource : Packed.source i < 25 := by
    show (i % 5 + 3 * (i / 5)) % 5 + 5 * (i % 5) < 25
    omega
  have hoffset : Packed.fetch 8 Packed.offsets (Packed.source i)
      = (cyclic offsets (Packed.source i)).toNat :=
    Packed.fetch_gather (fun j hj => Nat.lt_trans (hfew j hj) (by decide)) hsource
  rw [fetch_ofWords s hsource, hoffset]
  exact toNat_rotateLeft _ _ (hfew _ hsource)

theorem ofWords_chi (s : State) : ofWords (chi s) = Packed.chi (ofWords s) := by
  refine Packed.ofVector_ofFn fun i hi => ?_
  have halong (k : Nat) : Packed.along k i < 25 := by
    show (i + k) % 5 + 5 * (i / 5) < 25
    omega
  have hrow (k : Nat) : (i % 5 + k) % 5 + 5 * (i / 5) = Packed.along k i := by
    show _ = (i + k) % 5 + 5 * (i / 5)
    rw [Nat.mod_add_mod]
  show (s.get ⟨i, hi⟩ ^^^ ((~~~cyclic s ((i % 5 + 1) % 5 + 5 * (i / 5))) &&&
    cyclic s ((i % 5 + 2) % 5 + 5 * (i / 5)))).toNat = _
  rw [hrow 1, hrow 2, fetch_ofWords s hi, fetch_ofWords s (halong 1), fetch_ofWords s (halong 2),
    ← cyclic_eq_get s hi, UInt64.toNat_xor, UInt64.toNat_and, UInt64.toNat_not]
  rfl

theorem ofWords_round (s : State) (constant : UInt64) :
    ofWords (round s constant) = Packed.round (ofWords s) constant.toNat := by
  have hmixed : ofWords (chi (rhoPi (theta s)))
      = Packed.chi (Packed.rhoPi (Packed.theta (ofWords s))) := by
    rw [ofWords_chi, ofWords_rhoPi, ofWords_theta]
  refine Packed.gather_congr fun i hi => ?_
  rw [← hmixed, fetch_ofWords _ hi, fetch_ofWords _ (Nat.succ_pos 24), round]
  generalize chi (rhoPi (theta s)) = mixed
  rw [cyclic_set _ _ _ hi]
  cases i with
  | zero =>
      rw [if_pos rfl, UInt64.toNat_xor]
      rfl
  | succ i =>
      rw [if_neg (Nat.succ_ne_zero i)]
      rfl

/-- The permutation is the same on numbers. -/
theorem ofWords_permute (s : State) : ofWords (permute s) = Packed.permute (ofWords s) := by
  rw [permute, Packed.permute, List.foldl_map]
  exact Eq.symm (List.foldl_hom ofWords fun s c => (ofWords_round s c).symm)

/-! ## The sponge -/

theorem ofWords_addBlock (s : State) (block : Bytes) :
    ofWords (addBlock s block) = Packed.addBlock (ofWords s) block := by
  refine Packed.ofVector_ofFn fun i hi => ?_
  rw [← cyclic_eq_get s hi, UInt64.toNat_xor, fetch_ofWords s hi, toNat_getD_words]
  rfl

/-- A message leaves the same number behind. -/
theorem ofWords_absorb (rate : Nat) (suffix : UInt8) (message : Bytes) :
    ofWords (absorb rate suffix message) = Packed.absorb rate suffix message := by
  have hstart : ofWords start = 0 := by decide
  rw [absorb, Packed.absorb, ← hstart]
  refine Eq.symm (List.foldl_hom ofWords fun s block => ?_)
  rw [ofWords_permute, ofWords_addBlock]

theorem toBytes_eq (s : State) : toBytes s = Bytes.ofNatLE 200 (ofWords s) :=
  ofNatLE_ofWords s

/-- Bytes that are squeezed from one block are the low bytes of the number. -/
theorem squeeze_eq {rate count : Nat} (hcount : 0 < count) (hle : count ≤ rate) (hrate : rate ≤ 200)
    (s : State) : squeeze rate count s = Bytes.ofNatLE count (ofWords s) := by
  have hblocks : (count + rate - 1) / rate = 1 := by
    rw [Nat.div_eq_iff (by omega)]
    omega
  rw [squeeze, hblocks, squeezeBlocks, List.take_take, Nat.min_eq_left hle, toBytes_eq,
    Bytes.take_ofNatLE (Nat.le_trans hle hrate)]

end AgileSeal.Keccak
