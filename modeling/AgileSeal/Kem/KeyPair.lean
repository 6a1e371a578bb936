import AgileSeal.Bytes

set_option autoImplicit false

/-! # Key pairs

A key encapsulation has a private key, which its owner keeps, and a public key, which anyone
may encapsulate to.
-/

namespace AgileSeal

/-- A private key and the public key that belongs to it. -/
structure KeyPair where
  privateKey : Bytes
  publicKey : Bytes

end AgileSeal
