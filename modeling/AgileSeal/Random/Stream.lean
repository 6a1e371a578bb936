import AgileSeal.Bytes

set_option autoImplicit false

/-! # Random streams

All random bytes come from one stream, which is a byte for every position and the position
of the next byte. A draw takes consecutive bytes and moves the position past them, so no
byte is ever used twice (`position_draw`).
-/

namespace AgileSeal

/-- A stream of bytes and how far it has been used. -/
structure RandomStream where
  byteAt : Nat → UInt8
  position : Nat

namespace RandomStream

/-- The bytes of a stream from `start` on. -/
def segment (s : RandomStream) (start count : Nat) : Bytes :=
  (List.range' start count).map s.byteAt

/-- The next `count` bytes, and the stream after them. -/
def draw (count : Nat) (s : RandomStream) : Bytes × RandomStream :=
  (s.segment s.position count, { s with position := s.position + count })

@[simp] theorem length_segment (s : RandomStream) (start count : Nat) :
    (s.segment start count).length = count := by
  simp [segment]

@[simp] theorem draw_fst (count : Nat) (s : RandomStream) :
    (s.draw count).1 = s.segment s.position count := rfl

@[simp] theorem position_draw (count : Nat) (s : RandomStream) :
    (s.draw count).2.position = s.position + count := rfl

@[simp] theorem byteAt_draw (count : Nat) (s : RandomStream) :
    (s.draw count).2.byteAt = s.byteAt := rfl

end RandomStream

end AgileSeal
