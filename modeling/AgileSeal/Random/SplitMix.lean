import AgileSeal.Random.Stream

set_option autoImplicit false

/-! # The SplitMix generator

A reproducible stream of random bytes. The state grows by a fixed odd number with every
word, so the words of the stream can be computed independently of each other: each is the
state at its place, mixed by two multiplications. A word gives eight bytes, least
significant first.
-/

namespace AgileSeal.SplitMix

/-- The distance between two states. -/
def increment : UInt64 := 0x9e3779b97f4a7c15

/-- Mixes the bits of a state. -/
def mix (state : UInt64) : UInt64 :=
  let a := (state ^^^ (state >>> 30)) * 0xbf58476d1ce4e5b9
  let b := (a ^^^ (a >>> 27)) * 0x94d049bb133111eb
  b ^^^ (b >>> 31)

/-- The word of the stream at an index. -/
def word (seed : UInt64) (index : Nat) : UInt64 :=
  mix (seed + increment * UInt64.ofNat (index + 1))

/-- The stream of a seed, from its start. -/
def stream (seed : UInt64) : RandomStream where
  -- byte `i % 8` of word `i / 8`
  byteAt i := UInt8.ofNat ((word seed (i / 8)).toNat / Nat.pow 256 (i % 8))
  position := 0

example : ((stream 7).draw 7).1 = [0xd7, 0x0d, 0x32, 0x59, 0xe4, 0xe1, 0xcb] := by
  decide +kernel

end AgileSeal.SplitMix
