import AgileSeal.Error
import AgileSeal.Kem.Mechanism
import AgileSeal.Suite.Definition

set_option autoImplicit false

/-! # Key material

The key pairs of both key encapsulations of a suite. Encryption needs the public halves
only. Keys that were derived from a passphrase carry the salt they were derived with. What
diagnostics show of key material is its lengths and never its bytes.
-/

namespace AgileSeal

/-- The keys for the two key encapsulations of a suite. -/
structure KeyMaterial where
  classicalPublicKey : Bytes
  pqcPublicKey : Bytes
  classicalPrivateKey : Option Bytes
  pqcPrivateKey : Option Bytes
  passphraseSalt : Option Bytes
deriving DecidableEq

namespace KeyMaterial

/-- Two key pairs together. -/
def ofKeyPairs (classical pqc : KeyPair) (passphraseSalt : Option Bytes) : KeyMaterial where
  classicalPublicKey := classical.publicKey
  pqcPublicKey := pqc.publicKey
  classicalPrivateKey := some classical.privateKey
  pqcPrivateKey := some pqc.privateKey
  passphraseSalt := passphraseSalt

/-- The material without its private halves. -/
def publicOnly (k : KeyMaterial) : KeyMaterial :=
  { k with classicalPrivateKey := none, pqcPrivateKey := none }

/-- The material after it has been wiped. -/
def wiped (_ : KeyMaterial) : KeyMaterial := ⟨[], [], none, none, none⟩

/-- Whether both private halves are there. -/
def hasPrivateKeys (k : KeyMaterial) : Bool :=
  k.classicalPrivateKey.isSome && k.pqcPrivateKey.isSome

/-- Key material as diagnostics show it. -/
def inspect (k : KeyMaterial) : String :=
  "KeyMaterial \x7b classical_public_key_len: " ++ toString k.classicalPublicKey.length ++
    ", pqc_public_key_len: " ++ toString k.pqcPublicKey.length ++
    ", has_private_keys: " ++ (if k.hasPrivateKeys then "true" else "false") ++ " \x7d"

/-! ## Lengths -/

/-- A key whose length does not fit a suite. -/
structure LengthProblem where
  what : String
  suiteId : String
  expected : Nat
  actual : Nat
deriving DecidableEq

/-- The wording of a problem. -/
def LengthProblem.message (p : LengthProblem) : String :=
  p.what ++ " has wrong length for suite `" ++ p.suiteId ++ "`: expected " ++
    toString p.expected ++ ", got " ++ toString p.actual

/-- What is wrong with the length of a key. -/
def keyProblem? (suite : SuiteDefinition) (what : String) (expected : Nat) (key : Bytes) :
    Option LengthProblem :=
  if key.length = expected then none else some ⟨what, suite.id, expected, key.length⟩

/-- The first key whose length does not fit a suite. Private keys may be missing. -/
def problem? (k : KeyMaterial) (suite : SuiteDefinition) : Option LengthProblem :=
  let classical := suite.classicalKem.kem
  let pqc := suite.pqcKem.kem
  (keyProblem? suite "classical public key" classical.publicKeyLength k.classicalPublicKey).or <|
    (keyProblem? suite "pqc public key" pqc.publicKeyLength k.pqcPublicKey).or <|
    (k.classicalPrivateKey.bind <|
      keyProblem? suite "classical private key" classical.privateKeyLength).or <|
    k.pqcPrivateKey.bind <| keyProblem? suite "pqc private key" pqc.privateKeyLength

/-- Checks the lengths of all keys. -/
def checkFor (k : KeyMaterial) (suite : SuiteDefinition) : Except Error Unit :=
  match k.problem? suite with
  | some problem => .error (.keyManagement problem.message)
  | none => .ok ()

theorem checkFor_eq_ok_iff (k : KeyMaterial) (suite : SuiteDefinition) :
    k.checkFor suite = .ok () ↔ k.problem? suite = none := by
  unfold checkFor
  split <;> simp_all

end KeyMaterial

end AgileSeal
