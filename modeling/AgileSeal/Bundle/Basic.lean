import AgileSeal.Bundle.Body
import AgileSeal.Bundle.Header
import AgileSeal.Cipher.Symmetric
import AgileSeal.Kem.Mechanism

set_option autoImplicit false

/-! # Bundles

A bundle is one encrypted text with all that is needed to decrypt it: a header and a body.
Before any primitive sees the fields of a bundle, `Bundle.defect?` compares them with what the
suite needs.
-/

namespace AgileSeal

/-- An encrypted text. -/
structure Bundle extends Header, Body
deriving DecidableEq

namespace Bundle

/-! ## Bytes -/

/-- The associated data of the encryption: the bytes of the header. -/
def associatedData (b : Bundle) : Except Error Bytes := b.toHeader.encode

/-- The complaint about a body that is too long. -/
def sizeProblem : String := "the size limit has been reached"

/-- The refusal to write a body that is too long. -/
def tooLong : Error := .encryptionFailed (PrimitiveError.serialization sizeProblem).message

/-- The bytes of a bundle. -/
def encode (b : Bundle) : Except Error Bytes :=
  match b.toHeader.encode with
  | .error e => .error e
  | .ok header =>
    let body := b.toBody.encode
    if Body.maxLength < body.length then .error tooLong else .ok (header ++ body)

/-- The complaint about a body that cannot be read. -/
def unreadable (problem : Body.Problem) : Error :=
  .malformedBundle (PrimitiveError.deserialization problem.message).message

/-- The bundle that a byte string holds. -/
def decode (bytes : Bytes) : Except Error Bundle :=
  match Header.read bytes with
  | .error problem => .error (.malformedBundle problem.message)
  | .ok (header, rest) =>
    match Body.decode rest with
    | .error problem => .error (unreadable problem)
    | .ok body => .ok ⟨header, body⟩

/-- The id of the suite a byte string names in its header. -/
def suiteIdOf? (bytes : Bytes) : Option String :=
  match Header.read bytes with
  | .ok (header, _) => some header.suiteId
  | .error _ => none

/-! ## Fitness for a suite -/

/-- What a suite finds wrong with a bundle. -/
inductive Defect
  | ephemeralKeyLength
  | ephemeralKeyMissing
  | encapsulatedKeyLength
  | nonceLength
  | tagLength
  | emptyCiphertext
  | emptyKdfSalt
  | passphraseSaltMissing
  | unexpectedStretchCost
  | stretchFunction
  | stretchCost
deriving DecidableEq

/-- The wording of a defect. -/
def Defect.message : Defect → String
  | .ephemeralKeyLength => "classical ephemeral key has wrong length"
  | .ephemeralKeyMissing => "classical ephemeral key is missing"
  | .encapsulatedKeyLength => "pqc encapsulated key has wrong length"
  | .nonceLength => "nonce has wrong length"
  | .tagLength => "authentication tag has wrong length"
  | .emptyCiphertext => "ciphertext is empty"
  | .emptyKdfSalt => "kdf salt is empty"
  | .passphraseSaltMissing => "passphrase salt is missing"
  | .unexpectedStretchCost => "stretch parameters in an external-key bundle"
  | .stretchFunction => "passphrase kdf does not match the suite"
  | .stretchCost => "passphrase stretching cost out of range"

/-- What is wrong with an ephemeral key. -/
def ephemeralDefect? (suite : SuiteDefinition) : Option Bytes → Option Defect
  | some key =>
    if key.length = suite.classicalKem.kem.encapsulatedLength then none
    else some .ephemeralKeyLength
  | none => some .ephemeralKeyMissing

/-- What is wrong with the fields that every suite needs. -/
def fieldDefect? (suite : SuiteDefinition) (b : Body) : Option Defect :=
  if b.encapsulatedKey.length ≠ suite.pqcKem.kem.encapsulatedLength then
    some .encapsulatedKeyLength
  else if b.nonce.length ≠ suite.symmetric.nonceLength then some .nonceLength
  else if b.tag.length ≠ suite.symmetric.tagLength then some .tagLength
  else if b.ciphertext = [] then some .emptyCiphertext
  else if b.kdfSalt = some [] then some .emptyKdfSalt
  else none

/-- What is wrong with the salt of a passphrase; a suite with a key file needs none. -/
def saltDefect? (mode : KeyMode) (salt : Option Bytes) : Option Defect :=
  match mode with
  | .keyFile => none
  | .passphrase => if salt.getD [] = [] then some .passphraseSaltMissing else none

/-- What is wrong with a recorded cost. A suite with a key file stretches nothing. -/
def costDefect? (suite : SuiteDefinition) : Option StretchCost → Option Defect
  | none => none
  | some cost =>
    match suite.mode with
    | .keyFile => some .unexpectedStretchCost
    | .passphrase =>
      if cost.kdf ≠ suite.passphraseKdf then some .stretchFunction
      else if cost.withinLimits = false then some .stretchCost
      else none

/-- The first thing a suite finds wrong with a bundle. -/
def defect? (b : Bundle) (suite : SuiteDefinition) : Option Defect :=
  (ephemeralDefect? suite b.ephemeralKey).or <| (fieldDefect? suite b.toBody).or <|
    (saltDefect? suite.mode b.passphraseSalt).or <| costDefect? suite b.stretchCost

/-- Checks that a bundle has everything a suite needs. -/
def checkFor (b : Bundle) (suite : SuiteDefinition) : Except Error Unit :=
  match b.defect? suite with
  | some defect => .error (.malformedBundle defect.message)
  | none => .ok ()

theorem checkFor_eq_ok_iff (b : Bundle) (suite : SuiteDefinition) :
    b.checkFor suite = .ok () ↔ b.defect? suite = none := by
  unfold checkFor
  split <;> simp_all

end Bundle

end AgileSeal
