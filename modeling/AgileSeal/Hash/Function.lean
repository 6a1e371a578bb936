import AgileSeal.Bytes

set_option autoImplicit false

/-! # Hash functions as values

Message authentication and key derivation work over any iterated hash function. A
`HashFunction` is such a function with the two numbers those constructions need: how many
bytes its digest has and how many bytes it absorbs at a time. The digest length is part of
the type of the result, so every construction over a hash function knows its output length.
-/

namespace AgileSeal

/-- An iterated hash function. -/
structure HashFunction where
  /-- Bytes absorbed by one step of the compression function. -/
  blockLength : Nat
  /-- Bytes of the digest. -/
  digestLength : Nat
  /-- The digest of a message. -/
  digest : Bytes → Vector UInt8 digestLength

end AgileSeal
