import AgileSeal.Registry.Builder
import AgileSeal.Search

set_option autoImplicit false

/-! # The service

What an application does with a registry: encrypt with the suite for new encryptions, decrypt
with any candidate, move a bundle to the current suite, ask whether a bundle is one of ours
and make new key files. The service works on the registry, the state of its factories, a
stream of random bytes and a file system.
-/

namespace AgileSeal

/-- What the service works on. -/
structure World (σ : Type) where
  registry : Registry σ
  factories : σ
  random : RandomStream
  files : FileSystem

/-- An operation of the service. -/
abbrev Action (σ α : Type) := ExceptT Error (StateT (World σ) Logged) α

namespace Action

variable {σ α : Type}

/-- An operation on the registry that cannot fail. -/
def resolving (m : Resolving σ α) : Action σ α := fun w => do
  let (a, registry, factories) ← m.run (w.registry, w.factories)
  return (.ok a, { w with registry, factories })

/-- A value or a failure. -/
def ofExcept (r : Except Error α) : Action σ α := fun w => pure (r, w)

/-- An operation that draws random bytes. -/
def sealing (m : Sealing α) : Action σ α := fun w => do
  let (result, random) ← StateT.run (ExceptT.run m) w.random
  return (result, { w with random })

/-- An operation that only reports events. -/
def logged (m : Logged α) : Action σ α := fun w => do
  let a ← m
  return (.ok a, w)

/-- An operation on the file system. -/
def filing (m : Filing α) : Action σ α := fun w =>
  let (result, files) := m.on w.files
  pure (result, { w with files })

/-- The file system. -/
def files : Action σ FileSystem := fun w => pure (.ok w.files, w)

end Action

namespace Service

variable {σ : Type}

/-- The report about a new bundle. -/
def encrypted (h : Handler) (b : Bundle) : Event where
  level := .debug
  target := "api::crypto"
  message := "Encrypted with active suite"
  fields := [("suite_id", .text h.suiteId), ("ciphertext_len", .number b.ciphertext.length)]

/-- The report about a bundle that was moved to the current suite. -/
def reencrypted (source target : String) : Event where
  level := .info
  target := "api::crypto"
  message := "Bundle re-encrypted"
  fields := [("from", .text source), ("to", .text target)]

/-- The handler of an id. -/
def resolve (id : String) : Action σ Handler := do
  Action.ofExcept (← Action.resolving (Registry.resolve id))

/-- The handler for new encryptions. -/
def activeHandler : Action σ Handler := do
  Action.ofExcept (← Action.resolving Registry.activeHandler)

/-- The suite for new encryptions. -/
def activeSuite : Action σ SuiteInfo := do
  let handler ← activeHandler
  return handler.suite.info

/-- Encrypts with a given handler. -/
def encryptWith (handler : Handler) (plaintext : Bytes) (credentials : Credentials) :
    Action σ Bundle := do
  let files ← Action.files
  Action.sealing (handler.encrypt files plaintext credentials)

/-- Encrypts with the suite for new encryptions. -/
def encrypt (plaintext : Bytes) (credentials : Credentials) : Action σ Bytes := do
  let handler ← activeHandler
  let bundle ← encryptWith handler plaintext credentials
  -- the report comes first: it is made even if the bundle turns out too long to write
  Action.logged (Logged.report (encrypted handler bundle))
  Action.ofExcept bundle.encode

/-- Searches all candidates for one that opens a bundle. -/
def search (blob : Bytes) (credentials : Credentials) : Action σ Search.Outcome := do
  let candidates ← Action.resolving Registry.candidates
  let files ← Action.files
  Action.logged (Search.run files candidates blob credentials .empty)

/-- Decrypts with any candidate. -/
def decrypt (blob : Bytes) (credentials : Credentials) : Action σ Payload := do
  let outcome ← search blob credentials
  Action.ofExcept outcome.result

/-- Decrypts a bundle and encrypts its text with the suite for new encryptions. -/
def reencrypt (blob : Bytes) (old new : Credentials) : Action σ Bytes := do
  let payload ← decrypt blob old
  let migrated ← encrypt payload.plaintext new
  let w ← get
  Action.logged (Logged.report (reencrypted payload.suiteId w.registry.active))
  return migrated

/-- Whether the header of a bundle names the suite of a candidate. The candidates are not
looked at when the header cannot be read. -/
def canDecrypt (blob : Bytes) : Action σ Bool :=
  match Bundle.suiteIdOf? blob with
  | none => return false
  | some id => do
    let candidates ← Action.resolving Registry.candidates
    return candidates.any fun h => h.suiteId = id

/-- Writes the keys of a suite to a key file. -/
def writeKeys (path : String) (suite : SuiteDefinition) (keys : KeyMaterial) : Action σ Unit :=
  Action.filing (KeyFile.store path suite keys)

/-- Makes new keys for a suite and writes them to a key file. -/
def provision (id path : String) : Action σ Unit := do
  let handler ← resolve id
  let keys ← Action.sealing (Sealing.drawing (KeyMaterial.generate handler.suite))
  writeKeys path handler.suite keys

end Service

end AgileSeal
