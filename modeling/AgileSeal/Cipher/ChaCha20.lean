import AgileSeal.Bytes
import AgileSeal.Mixing

set_option autoImplicit false

/-! # The ChaCha20 stream cipher

A block of keystream is the mix of a square of sixteen words: four constants, eight words of
key, a block counter and three words of nonce. The square is turned through ten double
rounds and added to its start. The extended-nonce form derives a fresh key from the first
sixteen nonce bytes with the same turn, without the addition.

Keystream of any length has exactly the length asked for (`length_keystream`), so adding it
to a text keeps the text's length.
-/

namespace AgileSeal.ChaCha20

/-- Rotation of a word to the left by `n` places, `0 < n < 32`. -/
@[inline] def rotateLeft (x n : UInt32) : UInt32 := (x <<< n) ||| (x >>> (32 - n))

/-- The mix of four words. -/
@[inline] def mix (a b c d : UInt32) : UInt32 × UInt32 × UInt32 × UInt32 :=
  let a := a + b
  let d := rotateLeft (d ^^^ a) 16
  let c := c + d
  let b := rotateLeft (b ^^^ c) 12
  let a := a + b
  let d := rotateLeft (d ^^^ a) 8
  let c := c + d
  let b := rotateLeft (b ^^^ c) 7
  (a, b, c, d)

/-- The first four words of every square: the ASCII text "expand 32-byte k". -/
def constants : List UInt32 := [0x61707865, 0x3320646e, 0x79622d32, 0x6b206574]

/-- The sixteen words a key and sixteen bytes of counter and nonce begin with; missing words
count as zero. -/
def square (key counterAndNonce : Bytes) : Vector UInt32 16 :=
  let words := constants ++ (Bytes.chunks 4 (key ++ counterAndNonce)).map
    fun b => UInt32.ofNat (Bytes.toNatLE b)
  let words := words.toArray
  Vector.ofFn fun i => words.getD i.val 0

/-- Ten double rounds. -/
def turn (s : Vector UInt32 16) : Vector UInt32 16 :=
  (List.range 10).foldl (fun s _ => mixSquare mix s) s

/-- The bytes of a list of words. -/
def wordBytes (words : List UInt32) : Bytes :=
  words.flatMap fun w => Bytes.ofNatLE 4 w.toNat

theorem length_wordBytes (words : List UInt32) : (wordBytes words).length = 4 * words.length := by
  induction words with
  | nil => rfl
  | cons w ws ih =>
    have : wordBytes (w :: ws) = Bytes.ofNatLE 4 w.toNat ++ wordBytes ws := rfl
    rw [this, List.length_append, ih, Bytes.length_ofNatLE, List.length_cons]
    omega

/-- Block number `counter` of the keystream of a 32-byte key and a 12-byte nonce. -/
def block (key nonce : Bytes) (counter : Nat) : Bytes :=
  let s := square key (Bytes.ofNatLE 4 counter ++ nonce)
  wordBytes (Vector.zipWith (· + ·) (turn s) s).toList

@[simp] theorem length_block (key nonce : Bytes) (counter : Nat) :
    (block key nonce counter).length = 64 := by
  simp [block, length_wordBytes]

/-- The first `count` blocks of keystream from block `counter` on. -/
def blocks (key nonce : Bytes) : Nat → Nat → Bytes
  | _, 0 => []
  | counter, count + 1 => block key nonce counter ++ blocks key nonce (counter + 1) count

/-- The first `length` bytes of keystream from block `counter` on. -/
def keystream (key nonce : Bytes) (counter length : Nat) : Bytes :=
  (blocks key nonce counter ((length + 63) / 64)).take length

theorem length_blocks (key nonce : Bytes) (counter count : Nat) :
    (blocks key nonce counter count).length = 64 * count := by
  induction count generalizing counter with
  | zero => rfl
  | succ count ih => rw [blocks, List.length_append, length_block, ih]; omega

@[simp] theorem length_keystream (key nonce : Bytes) (counter length : Nat) :
    (keystream key nonce counter length).length = length := by
  simp only [keystream, List.length_take, length_blocks]
  omega

/-- The key for a 24-byte nonce: the first and the last four words of the turned square. -/
def extendedKey (key nonce : Bytes) : Bytes :=
  let s := (turn (square key (nonce.take 16))).toList
  -- no key stands in these places at the start, so leaving out the addition costs nothing
  wordBytes (s.take 4 ++ s.drop 12)

@[simp] theorem length_extendedKey (key nonce : Bytes) : (extendedKey key nonce).length = 32 := by
  simp [extendedKey, length_wordBytes]

end AgileSeal.ChaCha20
