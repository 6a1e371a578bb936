import AgileSeal.Cyclic
import AgileSeal.Hash.Blake2b

set_option autoImplicit false

/-! # Argon2id

The memory-hard password derivation, version 0x13, without secret or associated data. A
matrix of one-kilobyte blocks, one row per lane, is filled in passes of four slices; each
new block compresses its predecessor with an earlier block. In the first half of the first
pass that earlier block is chosen from the position alone, afterwards from the content of
the predecessor. The last column folds into the result.

`derive` runs at any cost with at least one lane and one pass, and its result has the length
asked for (`length_derive`).
-/

namespace AgileSeal.Argon2

/-- A block of one kilobyte. -/
abbrev Block := Vector UInt64 128

/-- The cost of a derivation. -/
structure Cost where
  /-- Memory in kilobytes. -/
  memory : Nat
  /-- Passes over the memory. -/
  passes : Nat
  /-- Lanes of the matrix. -/
  lanes : Nat

/-! ## Hashing to any length -/

/-- Chains 64-byte digests, keeping the first half of each, until 64 bytes or fewer are
missing; `count` is how many halves are kept. -/
def chain (length : Nat) : Nat → Bytes → Bytes
  | 0, previous => Blake2b.hash length previous
  | count + 1, previous =>
    let digest := Blake2b.hash 64 previous
    digest.take 32 ++ chain (length - 32) count digest

/-- The digest of any length: one short digest, or a chain of long ones. -/
def longHash (length : Nat) (message : Bytes) : Bytes :=
  chain length ((length + 31) / 32 - 2) (Bytes.ofNatLE 4 length ++ message)

theorem length_chain (length count : Nat) (previous : Bytes) (low : 32 * count ≤ length)
    (high : length ≤ 32 * count + 64) : (chain length count previous).length = length := by
  induction count generalizing length previous with
  | zero => exact Blake2b.length_hash length (by omega) previous
  | succ count ih =>
    simp only [chain, List.length_append, List.length_take, Blake2b.length_hash 64 (by omega),
      ih (length - 32) _ (by omega) (by omega)]
    omega

@[simp] theorem length_longHash (length : Nat) (message : Bytes) :
    (longHash length message).length = length :=
  length_chain _ _ _ (by omega) (by omega)

/-! ## Compression -/

/-- Sum of two words and twice the product of their low halves. -/
@[inline] def multiplyAdd (x y : UInt64) : UInt64 :=
  x + y + 2 * ((x &&& 0xffffffff) * (y &&& 0xffffffff))

/-- The mix of four words. -/
@[inline] def mix (a b c d : UInt64) : UInt64 × UInt64 × UInt64 × UInt64 :=
  let a := multiplyAdd a b
  let d := Blake2b.rotateRight (d ^^^ a) 32
  let c := multiplyAdd c d
  let b := Blake2b.rotateRight (b ^^^ c) 24
  let a := multiplyAdd a b
  let d := Blake2b.rotateRight (d ^^^ a) 16
  let c := multiplyAdd c d
  let b := Blake2b.rotateRight (b ^^^ c) 63
  (a, b, c, d)

/-- Writes the words of a square to their places in a block. -/
def scatter (places : Vector (Fin 128) 16) (square : Vector UInt64 16) (block : Block) : Block :=
  (List.finRange 16).foldl (fun (b : Block) i =>
    b.set (places.get i).val (square.get i) (places.get i).isLt) block

/-- Mixes sixteen words of a block as a square. -/
def mixAt (block : Block) (places : Vector (Fin 128) 16) : Block :=
  scatter places (mixSquare mix (places.map block.get)) block

/-- The places of the eight rows of a block. -/
def rows : List (Vector (Fin 128) 16) :=
  (List.finRange 8).map fun r => Vector.ofFn fun i => ⟨16 * r.val + i.val, by omega⟩

/-- The places of the eight columns of a block, each two words wide. -/
def columns : List (Vector (Fin 128) 16) :=
  (List.finRange 8).map fun c => Vector.ofFn fun i =>
    ⟨2 * c.val + 16 * (i.val / 2) + i.val % 2, by omega⟩

/-- The bitwise sum of two blocks. -/
def sum (x y : Block) : Block := Vector.zipWith (fun a b => a ^^^ b) x y

/-- Compresses two blocks into one: mixes their sum row by row and column by column, and
adds the sum again. -/
def compress (x y : Block) : Block :=
  let start := sum x y
  sum start (columns.foldl mixAt (rows.foldl mixAt start))

/-! ## Choosing the earlier block -/

/-- Where filling stands: pass, slice, lane and index within the lane's part of the slice. -/
structure Position where
  pass : Nat
  slice : Nat
  lane : Nat
  index : Nat

/-- Blocks in one lane's part of a slice. -/
def Cost.segment (cost : Cost) : Nat := cost.memory / (4 * cost.lanes)

/-- Blocks in a lane. -/
def Cost.laneLength (cost : Cost) : Nat := 4 * cost.segment

/-- The block of 128 address words number `counter` of a segment, used where addresses come
from the position alone. -/
def addressBlock (cost : Cost) (p : Position) (counter : Nat) : Block :=
  let words : Array Nat :=
    #[p.pass, p.lane, p.slice, cost.laneLength * cost.lanes, cost.passes, 2, counter]
  let input : Block := Vector.ofFn fun i => UInt64.ofNat (words.getD i.val 0)
  let zero : Block := Vector.replicate 128 0
  compress zero (compress zero input)

/-- Whether addresses come from the position alone: in the first two slices of the first
pass. -/
def Position.independent (p : Position) : Bool := p.pass == 0 && p.slice < 2

/-- The earlier block that a random word chooses for a position: a lane and a column. The
word's high half chooses the lane; its low half chooses a column among those already
filled, later ones being likelier. -/
def reference (cost : Cost) (p : Position) (word : UInt64) : Nat × Nat :=
  let first := p.pass == 0
  let lane := if first && p.slice == 0 then p.lane else (word >>> 32).toNat % cost.lanes
  let same := lane == p.lane
  let finished := if first then p.slice * cost.segment else cost.laneLength - cost.segment
  -- the own lane offers every finished block but the predecessor, another lane its finished
  -- slices, and to the first block of a slice all of them but their last block
  let area := if same then finished + p.index - 1
    else if p.index == 0 then finished - 1 else finished
  let low := (word &&& 0xffffffff).toNat
  -- squaring a uniform word favours short distances from the newest block
  let distance := (area * ((low * low) >>> 32)) >>> 32
  -- after the first pass the oldest block is the one behind the current slice
  let start := if first then 0 else ((p.slice + 1) % 4) * cost.segment
  (lane, (start + (area - 1 - distance)) % cost.laneLength)

/-! ## Filling -/

/-- The matrix as one array, lane after lane. -/
abbrev Memory := Array Block

/-- The block at a lane and a column. -/
def Memory.block (m : Memory) (cost : Cost) (lane column : Nat) : Block :=
  m.getD (lane * cost.laneLength + column) (Vector.replicate 128 0)

/-- Fills the block at one position; `addresses` holds the segment's address blocks where
addresses come from the position alone. -/
def fillBlock (cost : Cost) (addresses : Array Block) (p : Position) (m : Memory) : Memory :=
  let column := p.slice * cost.segment + p.index
  let previous := m.block cost p.lane ((column + cost.laneLength - 1) % cost.laneLength)
  let word :=
    if p.independent then cyclic (addresses.getD (p.index / 128) previous) p.index
    else cyclic previous 0
  let (lane, refColumn) := reference cost p word
  let fresh := compress previous (m.block cost lane refColumn)
  -- later passes add to what an earlier pass has left
  let stored := if p.pass == 0 then fresh else sum fresh (m.block cost p.lane column)
  m.setIfInBounds (p.lane * cost.laneLength + column) stored

/-- Fills one lane's part of a slice. The first two blocks of a lane are given, so the very
first segment starts at its third block. -/
def fillSegment (cost : Cost) (m : Memory) (p : Position) : Memory :=
  let addresses := if p.independent then
      (List.range ((cost.segment + 127) / 128)).map fun k => addressBlock cost p (k + 1)
    else []
  let start := if p.pass == 0 && p.slice == 0 then 2 else 0
  (List.range' start (cost.segment - start)).foldl
    (fun m index => fillBlock cost addresses.toArray { p with index } m) m

/-- The segments in the order in which they are filled. -/
def segments (cost : Cost) : List Position :=
  (List.range cost.passes).flatMap fun pass => (List.range 4).flatMap fun slice =>
    (List.range cost.lanes).map fun lane => ⟨pass, slice, lane, 0⟩

/-! ## Derivation -/

/-- The 64-byte digest of all inputs. -/
def inputDigest (cost : Cost) (length : Nat) (password salt : Bytes) : Bytes :=
  let number := Bytes.ofNatLE 4
  Blake2b.hash 64 (number cost.lanes ++ number length ++ number cost.memory ++
    number cost.passes ++ number 0x13 ++ number 2 ++ number password.length ++ password ++
    number salt.length ++ salt ++ number 0 ++ number 0)

/-- Reads a block from its bytes. -/
def blockOfBytes (bytes : Bytes) : Block :=
  let words := ((Bytes.chunks 8 bytes).map fun b => UInt64.ofNat (Bytes.toNatLE b)).toArray
  Vector.ofFn fun i => words.getD i.val 0

/-- The bytes of a block. -/
def blockBytes (block : Block) : Bytes := block.toList.flatMap fun w => Bytes.ofNatLE 8 w.toNat

/-- The matrix before filling: the first two blocks of every lane are set. -/
def initialMemory (cost : Cost) (digest : Bytes) : Memory :=
  let zero : Block := Vector.replicate 128 0
  (List.range cost.lanes).foldl (fun m lane =>
    let given (k : Nat) : Block :=
      blockOfBytes (longHash 1024 (digest ++ Bytes.ofNatLE 4 k ++ Bytes.ofNatLE 4 lane))
    (m ++ #[given 0, given 1]) ++ Array.replicate (cost.laneLength - 2) zero) #[]

/-- The derived key of `length` bytes. -/
def derive (cost : Cost) (length : Nat) (password salt : Bytes) : Bytes :=
  let start := initialMemory cost (inputDigest cost length password salt)
  let m := (segments cost).foldl (fillSegment cost) start
  let last := (List.range cost.lanes).map fun lane => m.block cost lane (cost.laneLength - 1)
  longHash length (blockBytes (last.foldl sum (Vector.replicate 128 0)))

@[simp] theorem length_derive (cost : Cost) (length : Nat) (password salt : Bytes) :
    (derive cost length password salt).length = length := by
  simp [derive]

end AgileSeal.Argon2
