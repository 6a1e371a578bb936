import AgileSeal.Kdf.Derivation
import AgileSeal.Keys.Material
import AgileSeal.Stretch.Cost

set_option autoImplicit false

/-! # Keys from a passphrase and from nothing

A stretched passphrase is expanded into one seed for each key encapsulation. The seeds depend
on the names of the algorithms and not on the id of the suite, so a suite that has been
renamed still derives the same keys. Fresh key pairs for a key file are made from random
seeds.
-/

namespace AgileSeal

/-- The start of the context from which seeds are expanded. -/
def keyPairContext : String := "agility-core/keypair/v1"

/-- The seed for the key encapsulation of the given name. -/
def expandSeed (suite : SuiteDefinition) (stretched salt : Bytes) (algorithm : String) :
    Except Error Bytes :=
  (suite.kdf.derive stretched (some salt) (Text.utf8 (keyPairContext ++ "/" ++ algorithm))
    seedLength).mapError fun e => .keyManagement e.message

namespace KeyMaterial

/-- The keys of a suite for a stretched passphrase. -/
def ofStretched (suite : SuiteDefinition) (stretched salt : Bytes) : Except Error KeyMaterial := do
  let classicalSeed ← expandSeed suite stretched salt (Algorithm.name suite.classicalKem)
  let pqcSeed ← expandSeed suite stretched salt (Algorithm.name suite.pqcKem)
  return ofKeyPairs (suite.classicalKem.kem.keyPair classicalSeed)
    (suite.pqcKem.kem.keyPair pqcSeed) (some salt)

/-- The keys of a suite for a passphrase, stretched at the cost that parameters set. -/
def ofPassphrase (suite : SuiteDefinition) (params : Params) (passphrase : String)
    (salt : Bytes) : Except Error KeyMaterial := do
  let stretched ← stretchPassphrase passphrase salt (.ofParams suite.passphraseKdf params)
  ofStretched suite stretched salt

/-- Fresh random keys for a suite, the classical ones first. -/
def generate (suite : SuiteDefinition) (s : RandomStream) : KeyMaterial × RandomStream :=
  let (classical, s) := suite.classicalKem.kem.generate s
  let (pqc, s) := suite.pqcKem.kem.generate s
  (ofKeyPairs classical pqc none, s)

end KeyMaterial

end AgileSeal
