import AgileSeal.Hash.Blake2b
import AgileSeal.Proofs.Packed

set_option autoImplicit false

/-! # BLAKE2b on one number

The chain and the square of a compression as numbers, and the compression on such numbers, step by
step beside the compression on words (`ofWords_compress`). So a digest can be evaluated on numbers
alone (`hash_eq`).
-/

namespace AgileSeal.Blake2b

open AgileSeal.Packed (ofFour ofNatLE_ofWords ofWords fetch_mod_ofWords fetch_ofWords ofWords_set
  ofWords_update toNat_getD_words)

/-! ## Words -/

namespace Packed

open AgileSeal.Packed

/-- Rotation of a word to the right by `n` places, `0 < n < 64`. -/
def rotateRight (x n : Nat) : Nat :=
  Nat.lor (Nat.shiftRight x n) (Nat.mod (Nat.shiftLeft x (Nat.sub 64 n)) 0x10000000000000000)

/-- The sum of two words. -/
def add (x y : Nat) : Nat := Nat.mod (Nat.add x y) 0x10000000000000000

/-- The complement of a word. -/
def complement (x : Nat) : Nat := Nat.sub 0xffffffffffffffff x

def mix (x y a b c d : Nat) : Nat × Nat × Nat × Nat :=
  let a := add (add a b) x
  let d := rotateRight (Nat.xor d a) 32
  let c := add c d
  let b := rotateRight (Nat.xor b c) 24
  let a := add (add a b) y
  let d := rotateRight (Nat.xor d a) 16
  let c := add c d
  let b := rotateRight (Nat.xor b c) 63
  (a, b, c, d)

end Packed

theorem toNat_rotateRight (x n : UInt64) (hpos : 0 < n.toNat) (hlt : n.toNat < 64) :
    (rotateRight x n).toNat = Packed.rotateRight x.toNat n.toNat := by
  have hle : n ≤ 64 := by
    rw [UInt64.le_iff_toNat_le]
    exact Nat.le_of_lt hlt
  have hback : (64 - n).toNat = 64 - n.toNat := UInt64.toNat_sub_of_le _ _ hle
  rw [rotateRight, UInt64.toNat_or, UInt64.toNat_shiftLeft, UInt64.toNat_shiftRight, hback,
    Nat.mod_eq_of_lt hlt, Nat.mod_eq_of_lt (Nat.sub_lt (by decide) hpos)]
  rfl

theorem toNat_add (x y : UInt64) : (x + y).toNat = Packed.add x.toNat y.toNat :=
  UInt64.toNat_add x y

theorem ofFour_mix (x y a b c d : UInt64) : ofFour (mix x y a b c d)
    = Packed.mix x.toNat y.toNat a.toNat b.toNat c.toNat d.toNat := by
  have hrotate (n : UInt64) (hpos : 0 < n.toNat) (hlt : n.toNat < 64) (z : UInt64) :=
    toNat_rotateRight z n hpos hlt
  simp only [mix, Packed.mix, ofFour, toNat_add, UInt64.toNat_xor,
    hrotate 32 (by decide) (by decide), hrotate 24 (by decide) (by decide),
    hrotate 16 (by decide) (by decide), hrotate 63 (by decide) (by decide)]
  rfl

/-! ## Compression -/

namespace Packed

open AgileSeal.Packed

def round (block square : Nat) : List Quartet → List Nat → Nat
  | q :: qs, i :: j :: order =>
    round block (update q (mix (fetch 64 block (Nat.mod i 16)) (fetch 64 block (Nat.mod j 16)))
      square) qs order
  | _, _ => square

def initial : Nat := ofWords Blake2b.initial

/-- The square of a chain. -/
def start (chain : Nat) : Nat :=
  gather 64 (fun i => bif Nat.blt i 8 then fetch 64 chain i else fetch 64 initial (Nat.sub i 8)) 16

/-- Enters the two halves of the count and the mark of the last block. -/
def enter (square absorbed : Nat) (last : Bool) : Nat :=
  let square := store 64 square 12
    (Nat.xor (fetch 64 square 12) (Nat.mod absorbed 0x10000000000000000))
  let square := store 64 square 13
    (Nat.xor (fetch 64 square 13) (Nat.mod (Nat.shiftRight absorbed 64) 0x10000000000000000))
  bif last then store 64 square 14 (complement (fetch 64 square 14)) else square

/-- The next chain, from the chain and the square after all rounds. -/
def finish (chain square : Nat) : Nat :=
  gather 64 (fun i => Nat.xor (Nat.xor (fetch 64 chain i) (fetch 64 square i))
    (fetch 64 square (Nat.add i 8))) 8

def compress (chain : Nat) (block : Bytes) (absorbed : Nat) (last : Bool) : Nat :=
  finish chain (schedule.foldl (fun s order => round
    (gather 64 (fetch 64 (Bytes.toNatLE block)) 16) s Quartet.columnsThenDiagonals order)
    (enter (start chain) absorbed last))

end Packed

theorem ofWords_round (block square : Vector UInt64 16) (qs : List Quartet) (order : List Nat) :
    ofWords (n := 15) (round block square qs order)
      = Packed.round (ofWords (n := 15) block) (ofWords (n := 15) square) qs order := by
  have hword (i : Nat) : Packed.fetch 64 (ofWords (n := 15) block) (Nat.mod i 16)
      = (cyclic block i).toNat := fetch_mod_ofWords (n := 15) block i
  fun_induction round block square qs order with
  | case1 square q qs i j order ih =>
      rw [ih, Packed.round, hword, hword, ofWords_update (ofFour_mix _ _)]
  | case2 square qs order hnone =>
      rw [Packed.round]
      exact hnone

theorem ofWords_start (chain : Vector UInt64 8) :
    ofWords (n := 15) (chain ++ initial) = Packed.start (ofWords (n := 7) chain) := by
  refine Packed.gather_congr fun i hi => ?_
  rw [cyclic_eq_get (n := 15) (chain ++ initial) hi]
  show ((chain ++ initial)[i]).toNat = _
  rw [Vector.getElem_append]
  by_cases hfirst : i < 8
  · rw [dif_pos hfirst, Nat.blt_eq.mpr hfirst, cond_true, fetch_ofWords (n := 7) chain hfirst,
      cyclic_eq_get (n := 7) chain hfirst]
    rfl
  · have hrest : i - 8 < 8 := by omega
    have hblt : Nat.blt i 8 = false := Bool.eq_false_iff.mpr (mt Nat.blt_eq.mp hfirst)
    rw [dif_neg hfirst, hblt, cond_false]
    show _ = Packed.fetch 64 (ofWords (n := 7) initial) (i - 8)
    rw [fetch_ofWords (n := 7) initial hrest, cyclic_eq_get (n := 7) initial hrest]
    rfl

theorem ofWords_enter (square : Vector UInt64 16) (absorbed : Nat) (last : Bool) :
    ofWords (n := 15)
      (let square := square.set 12 (cyclic square 12 ^^^ UInt64.ofNat absorbed) (by decide)
      let square := square.set 13 (cyclic square 13 ^^^ UInt64.ofNat (absorbed >>> 64)) (by decide)
      if last then square.set 14 (~~~cyclic square 14) (by decide) else square)
    = Packed.enter (ofWords (n := 15) square) absorbed last := by
  have hset (s : Vector UInt64 16) (i : Nat) (hi : i < 16) (word : UInt64) :
      ofWords (n := 15) (s.set i word hi)
        = Packed.store 64 (ofWords (n := 15) s) i word.toNat := ofWords_set (n := 15) s word hi
  have hget (s : Vector UInt64 16) (i : Nat) (hi : i < 16) :
      (cyclic s i).toNat = Packed.fetch 64 (ofWords (n := 15) s) i :=
    (fetch_ofWords (n := 15) s hi).symm
  unfold Packed.enter
  cases last with
  | false =>
      simp only [Bool.false_eq_true, if_false, cond_false, hset, UInt64.toNat_xor,
        UInt64.toNat_ofNat', hget _ 12 (by decide), hget _ 13 (by decide)]
      rfl
  | true =>
      simp only [if_true, cond_true, hset, UInt64.toNat_xor, UInt64.toNat_not,
        UInt64.toNat_ofNat', hget _ 12 (by decide), hget _ 13 (by decide), hget _ 14 (by decide)]
      rfl

theorem ofWords_finish (chain : Vector UInt64 8) (square : Vector UInt64 16) :
    ofWords (n := 7) (Vector.ofFn fun i => chain.get i ^^^ cyclic square i ^^^
      cyclic square (i + 8))
    = Packed.finish (ofWords (n := 7) chain) (ofWords (n := 15) square) := by
  refine Packed.ofVector_ofFn fun i hi => ?_
  have hhigh : Packed.fetch 64 (ofWords (n := 15) square) (Nat.add i 8)
      = (cyclic square (i + 8)).toNat :=
    fetch_ofWords (n := 15) square (Nat.add_lt_add_right hi 8)
  rw [hhigh, fetch_ofWords (n := 7) chain hi,
    fetch_ofWords (n := 15) square (Nat.lt_trans hi (by decide)), UInt64.toNat_xor,
    UInt64.toNat_xor, cyclic_eq_get (n := 7) chain hi]
  rfl

theorem ofWords_compress (chain : Vector UInt64 8) (block : Bytes) (absorbed : Nat) (last : Bool) :
    ofWords (n := 7) (compress chain block absorbed last)
      = Packed.compress (ofWords (n := 7) chain) block absorbed last := by
  have hwords : ofWords (n := 15) (Vector.ofFn fun i : Fin 16 => ((Bytes.chunks 8 block).map
      fun b => UInt64.ofNat (Bytes.toNatLE b)).toArray.getD i.val 0)
        = Packed.gather 64 (Packed.fetch 64 (Bytes.toNatLE block)) 16 :=
    Packed.ofVector_ofFn fun i _ => toNat_getD_words block i
  rw [Packed.compress, ← ofWords_start, ← ofWords_enter, ← hwords]
  unfold compress
  rw [ofWords_finish]
  exact congrArg (Packed.finish _) (Eq.symm (List.foldl_hom (ofWords (n := 15))
    fun square order => (ofWords_round _ square _ order).symm))

-- the equations of `absorb` below are not to run it
attribute [irreducible] Packed.compress

/-! ## Messages -/

namespace Packed

open AgileSeal.Packed

def absorb (chain absorbed : Nat) : List Bytes → Nat
  | [] => chain
  | [block] => compress chain block (absorbed + block.length) true
  | block :: rest => absorb (compress chain block (absorbed + 128) false) (absorbed + 128) rest

def hash (length : Nat) (message : Bytes) : Bytes :=
  let chain := store 64 initial 0 (Nat.xor (Nat.xor (fetch 64 initial 0) 0x01010000)
    (Nat.mod length 0x10000000000000000))
  let blocks := if message.isEmpty then [[]] else Bytes.chunks 128 message
  (Bytes.ofNatLE 64 (absorb chain 0 blocks)).take length

end Packed

theorem ofWords_absorb (chain : Vector UInt64 8) (absorbed : Nat) (blocks : List Bytes) :
    ofWords (n := 7) (absorb chain absorbed blocks)
      = Packed.absorb (ofWords (n := 7) chain) absorbed blocks := by
  induction blocks generalizing chain absorbed with
  | nil => rw [absorb, Packed.absorb]
  | cons block rest ih =>
      cases rest with
      | nil => rw [absorb, Packed.absorb, ofWords_compress]
      | cons next rest =>
          rw [absorb, Packed.absorb, ih, ofWords_compress]
          · exact List.cons_ne_nil next rest
          · exact List.cons_ne_nil next rest

end AgileSeal.Blake2b
