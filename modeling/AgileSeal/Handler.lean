import AgileSeal.Engine
import AgileSeal.Keys.Credentials
import AgileSeal.Keys.Derivation
import AgileSeal.Keys.KeyFile
import AgileSeal.Stretch.Cache

set_option autoImplicit false

/-! # Handlers

A handler encrypts and decrypts with one suite. It joins the encryption of the suite with the
way its keys are found: from a passphrase, anew for every operation, or from a key file.

The cost of stretching is the configured one for new bundles and the recorded one for those
that are opened; a bundle without a recorded cost is opened with the configured one. Cheap
checks come before any stretching.
-/

namespace AgileSeal

/-- What encrypts and decrypts with one suite. -/
inductive Handler
  /-- The keys come from a passphrase, stretched at the cost in the parameters. -/
  | passphrase (engine : Engine) (params : Params)
  /-- The keys come from a key file. -/
  | keyFile (engine : Engine)

namespace Handler

/-- The handler of a suite, of the kind its mode asks for. -/
def ofDefinition (suite : SuiteDefinition) (params : Params) : Except Error Handler := do
  params.validate
  match suite.mode with
  | .passphrase => return .passphrase (.new suite params) params
  | .keyFile => return .keyFile (.new suite params)

/-- The encryption of the suite. -/
def engine : Handler → Engine
  | .passphrase engine _ => engine
  | .keyFile engine => engine

/-- The suite. -/
def suite (h : Handler) : SuiteDefinition := h.engine.suite

/-- The id of the suite. -/
def suiteId (h : Handler) : String := h.suite.id

/-! ## Encryption -/

/-- The complaint about credentials of the wrong kind. -/
def wrongCredentials (h : Handler) : Error :=
  .keyManagement ("suite `" ++ h.suiteId ++ "` expects " ++ Algorithm.name h.suite.mode ++
    " credentials")

/-- Encrypts a text. A salt for the passphrase is drawn before the passphrase is looked
at. -/
def encrypt (h : Handler) (files : FileSystem) (plaintext : Bytes) (credentials : Credentials) :
    Sealing Bundle :=
  match h, credentials with
  | .passphrase engine params, .passphrase text => do
    -- the salt is fresh, so two encryptions of one text share no key
    let salt ← Sealing.drawing (RandomStream.draw params.saltLength.toNat)
    let cost := StretchCost.ofParams engine.suite.passphraseKdf params
    let stretched ← Sealing.ofExcept (stretchPassphrase text salt cost)
    let keys ← Sealing.ofExcept (KeyMaterial.ofStretched engine.suite stretched salt)
    let bundle ← engine.encrypt plaintext keys
    return { bundle with stretchCost := some cost }
  | .keyFile engine, .keyFile path => do
    let keys ← Sealing.ofExcept (KeyFile.load files path engine.suite)
    engine.encrypt plaintext keys
  | _, _ => throw h.wrongCredentials

/-! ## Decryption -/

/-- Reads a bundle and checks that it has everything the suite needs. -/
def parse (h : Handler) (bytes : Bytes) : Except Error Bundle := do
  let bundle ← Bundle.decode bytes
  bundle.checkFor h.suite
  return bundle

/-- The report that a bundle was turned down. -/
def rejected (h : Handler) (reason : String) : Event where
  level := .debug
  target := "crypto::suites"
  message := "Handler rejected bundle"
  fields := [("suite_id", .text h.suiteId), ("reason", .text reason)]

/-- The reason to turn a bundle down before its keys are looked for. -/
def refusal? (h : Handler) (b : Bundle) (label : LabelMatch) : Option String :=
  if label = .exact ∧ b.suiteId ≠ h.suiteId then some "bundle belongs to another suite"
  else if (b.defect? h.suite).isSome then some "bundle is incomplete for this suite"
  else none

/-- The cost at which the passphrase of a bundle was stretched. -/
def costOf (engine : Engine) (params : Params) (b : Bundle) : StretchCost :=
  b.stretchCost.getD (.ofParams engine.suite.passphraseKdf params)

/-- The keys for a passphrase and the salt of a bundle, or the reason why there are none. -/
def passphraseKeys (engine : Engine) (params : Params) (b : Bundle) (text : String)
    (cache : StretchCache) : Except String KeyMaterial × StretchCache :=
  match b.passphraseSalt with
  | none => (.error "passphrase salt is missing", cache)
  | some salt =>
    match cache.stretch text salt (costOf engine params b) with
    | (.error e, cache) => (.error e.message, cache)
    | (.ok stretched, cache) =>
      ((KeyMaterial.ofStretched engine.suite stretched salt).mapError Error.message, cache)

/-- The keys for a bundle, or the reason why there are none. -/
def keysFor (h : Handler) (files : FileSystem) (b : Bundle) (credentials : Credentials)
    (cache : StretchCache) : Except String KeyMaterial × StretchCache :=
  match h, credentials with
  | .passphrase engine params, .passphrase text => passphraseKeys engine params b text cache
  | .keyFile engine, .keyFile path =>
    ((KeyFile.load files path engine.suite).mapError Error.message, cache)
  | _, _ => (.error "credentials do not match key management mode", cache)

/-- Turns a bundle down. -/
def reject (h : Handler) (reason : String) : Logged (Except Error Bytes) := do
  Logged.report (h.rejected reason)
  return .error .decryption

/-- The text in a bundle, with the stretched keys of a cache. Every failure is the same
error. -/
def decryptWith (h : Handler) (files : FileSystem) (b : Bundle) (credentials : Credentials)
    (label : LabelMatch) (cache : StretchCache) : Logged (Except Error Bytes × StretchCache) :=
  match h.refusal? b label with
  | some reason => (·, cache) <$> h.reject reason
  | none =>
    match h.keysFor files b credentials cache with
    | (.error reason, cache) => (·, cache) <$> h.reject reason
    | (.ok keys, cache) => (·, cache) <$> h.engine.decrypt b keys label

/-- The text in a bundle. -/
def decrypt (h : Handler) (files : FileSystem) (b : Bundle) (credentials : Credentials)
    (label : LabelMatch) : Logged (Except Error Bytes) :=
  (·.1) <$> h.decryptWith files b credentials label .empty

end Handler

end AgileSeal
