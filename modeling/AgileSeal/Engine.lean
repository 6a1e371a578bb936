import AgileSeal.Bundle.Basic
import AgileSeal.Event
import AgileSeal.Kdf.Derivation
import AgileSeal.Keys.Material

set_option autoImplicit false

/-! # Hybrid encryption

A text is encrypted to the public keys of two key encapsulations. Both transport a secret,
the key of the cipher is derived from the two secrets together, and the header of the bundle
is authenticated with the text. The text stays secret as long as one of the two key
encapsulations does.

Whatever goes wrong when a bundle is opened, the caller is told the same; the reason goes
into an event only.
-/

namespace AgileSeal

/-- The context from which the key of the cipher is derived. -/
def cipherKeyContext : String := "agility-core/hybrid-kem/v1/aead-key"

/-- Whether the label of a bundle has to name the suite that opens it. -/
inductive LabelMatch
  | exact
  | override
deriving DecidableEq

/-- The encryption of one suite. -/
structure Engine where
  suite : SuiteDefinition
  /-- The length of the salt in new bundles. -/
  saltLength : Nat

/-! ## Encryption -/

/-- An operation that draws random bytes, reports events and may fail. -/
abbrev Sealing (α : Type) := ExceptT Error (StateT RandomStream Logged) α

namespace Sealing

variable {α : Type}

/-- An operation that only draws random bytes. -/
def drawing (f : RandomStream → α × RandomStream) : Sealing α := fun s =>
  pure (.ok (f s).1, (f s).2)

/-- An operation that draws random bytes and fails as a primitive does. -/
def primitive (f : RandomStream → Except PrimitiveError α × RandomStream) : Sealing α := fun s =>
  pure ((f s).1.mapError fun e => .encryptionFailed e.message, (f s).2)

/-- A value, or the failure of a primitive. -/
def ofPrimitive (r : Except PrimitiveError α) : Sealing α := fun s =>
  pure (r.mapError fun e => .encryptionFailed e.message, s)

/-- A value or a failure. -/
def ofExcept (r : Except Error α) : Sealing α := fun s => pure (r, s)

/-- Reports an event. -/
def report (e : Event) : Sealing Unit := fun s => do
  Logged.report e
  return (.ok (), s)

end Sealing

namespace Engine

/-- The encryption of a suite, with the salt length that parameters set. -/
def new (suite : SuiteDefinition) (params : Params) : Engine := ⟨suite, params.saltLength.toNat⟩

/-- The key of the cipher for the two secrets and a salt. -/
def cipherKey (e : Engine) (classicalSecret pqcSecret : Bytes) (salt : Option Bytes) :
    Except PrimitiveError Bytes :=
  e.suite.kdf.derive (classicalSecret ++ pqcSecret) salt (Text.utf8 cipherKeyContext)
    e.suite.symmetric.keyLength

/-- The report that both secrets have been encapsulated. -/
def encapsulated (e : Engine) : Event where
  level := .trace
  target := "crypto::hybrid"
  message := "Encapsulated both shared secrets"
  fields := [("suite_id", .text e.suite.id)]

/-- Encrypts a text to the public halves of key material. The salt of a passphrase is copied
into the bundle; its cost is left to the caller. -/
def encrypt (e : Engine) (plaintext : Bytes) (keys : KeyMaterial) : Sealing Bundle := do
  if plaintext = [] then throw (.invalidArgument "plaintext cannot be empty")
  Sealing.ofExcept (keys.checkFor e.suite)
  let (ephemeralKey, classicalSecret) ←
    Sealing.primitive (e.suite.classicalKem.kem.encapsulate keys.classicalPublicKey)
  let (encapsulatedKey, pqcSecret) ←
    Sealing.primitive (e.suite.pqcKem.kem.encapsulate keys.pqcPublicKey)
  Sealing.report e.encapsulated
  let kdfSalt ← Sealing.drawing (RandomStream.draw e.saltLength)
  let key ← Sealing.ofPrimitive (e.cipherKey classicalSecret pqcSecret (some kdfSalt))
  -- the header is fixed before the text is encrypted, because the tag covers it
  let header := Header.ofSuite e.suite.id
  let associated ← Sealing.ofExcept header.encode
  let nonce ← Sealing.drawing (RandomStream.draw e.suite.symmetric.nonceLength)
  let (ciphertext, tag) ←
    Sealing.ofPrimitive (e.suite.symmetric.encrypt key nonce plaintext associated)
  let body : Body := {
    ephemeralKey := some ephemeralKey
    encapsulatedKey := encapsulatedKey
    nonce := nonce
    ciphertext := ciphertext
    tag := tag
    passphraseSalt := keys.passphraseSalt
    stretchCost := none
    kdfSalt := some kdfSalt }
  return ⟨header, body⟩

/-! ## Decryption -/

/-- Refuses a bundle of another suite where the label has to match. -/
def checkLabel (e : Engine) (label : LabelMatch) (b : Bundle) : Except PrimitiveError Unit :=
  if label = .exact ∧ b.suiteId ≠ e.suite.id then
    .error (.invalidInput "bundle belongs to another suite")
  else .ok ()

/-- A failure that concerns the input as a whole. -/
def asInput {α : Type} (r : Except Error α) : Except PrimitiveError α :=
  r.mapError fun e => .invalidInput e.message

/-- The private keys, of which both are needed. -/
def privateKeys (keys : KeyMaterial) : Except PrimitiveError (Bytes × Bytes) :=
  match keys.classicalPrivateKey, keys.pqcPrivateKey with
  | some classical, some pqc => .ok (classical, pqc)
  | _, _ => .error (.invalidInput "private keys are not available")

/-- The ephemeral key of a bundle. -/
def ephemeralKey (b : Bundle) : Except PrimitiveError Bytes :=
  match b.ephemeralKey with
  | some key => .ok key
  | none => .error (.invalidInput "missing ephemeral key")

/-- The text in a bundle, or the reason why there is none. -/
def reveal (e : Engine) (b : Bundle) (keys : KeyMaterial) (label : LabelMatch) :
    Except PrimitiveError Bytes := do
  e.checkLabel label b
  -- both checks come before any private key is used
  asInput (b.checkFor e.suite)
  asInput (keys.checkFor e.suite)
  let (classicalPrivate, pqcPrivate) ← privateKeys keys
  let ephemeral ← ephemeralKey b
  let classicalSecret ← e.suite.classicalKem.kem.decapsulate classicalPrivate ephemeral
  let pqcSecret ← e.suite.pqcKem.kem.decapsulate pqcPrivate b.encapsulatedKey
  let key ← e.cipherKey classicalSecret pqcSecret b.kdfSalt
  let associated ← asInput b.associatedData
  e.suite.symmetric.decrypt key b.nonce b.ciphertext b.tag associated

/-- The report that a bundle could not be opened. -/
def rejected (e : Engine) (b : Bundle) (reason : PrimitiveError) : Event where
  level := .debug
  target := "crypto::hybrid"
  message := "Hybrid decryption rejected"
  fields := [("suite_id", .text e.suite.id), ("bundle_suite_id", .text b.suiteId),
    ("reason", .text reason.message)]

/-- The text in a bundle. Every failure is the same error. -/
def decrypt (e : Engine) (b : Bundle) (keys : KeyMaterial) (label : LabelMatch) :
    Logged (Except Error Bytes) :=
  match e.reveal b keys label with
  | .ok plaintext => pure (.ok plaintext)
  | .error reason => do
    Logged.report (e.rejected b reason)
    return .error .decryption

end Engine

end AgileSeal
