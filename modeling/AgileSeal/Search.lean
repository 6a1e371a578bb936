import AgileSeal.Handler
import AgileSeal.Text.Quoted

set_option autoImplicit false

/-! # Searching for the suite of a bundle

A bundle is opened by trying suites. If the header names the suite of a candidate, that
candidate is tried first and the label has to match. Then every other candidate is tried in
order, whatever the label says, so a bundle whose suite has been renamed still opens.

The caller learns the text and the suite, or one error for all failures. Records of the
attempts, without secrets, go into events. All attempts of one search share the stretched
keys of one passphrase.
-/

namespace AgileSeal

/-- A decrypted text and the suite that opened it. -/
structure Payload where
  plaintext : Bytes
  suiteId : String
deriving DecidableEq

/-- A payload as diagnostics show it. -/
def Payload.inspect (p : Payload) : String :=
  "DecryptedPayload \x7b plaintext_len: " ++ toString p.plaintext.length ++ ", suite_id: " ++
    Text.quoted p.suiteId ++ " \x7d"

/-- Why an attempt failed: the bundle does not have the form of the suite, or it has and could
not be decrypted. -/
inductive AttemptFailure
  | malformed
  | decryption
deriving DecidableEq

/-- The name of a failure. -/
def AttemptFailure.name : AttemptFailure → String
  | .malformed => "Malformed"
  | .decryption => "Decryption"

/-- Whether an attempt was made because of the label or in spite of it. -/
inductive Phase
  | targeted
  | fallback
deriving DecidableEq

/-- The name of a phase. -/
def Phase.name : Phase → String
  | .targeted => "Targeted"
  | .fallback => "Fallback"

/-- What the label of a bundle has to be in a phase. -/
def Phase.label : Phase → LabelMatch
  | .targeted => .exact
  | .fallback => .override

/-- An attempt that has been made. -/
structure AttemptRecord where
  suiteId : String
  phase : Phase
  failure : Option AttemptFailure
deriving DecidableEq

namespace Search

/-! ## The order of attempts -/

/-- The attempts to make, in order: the first candidate that the header names, then all
others. -/
def plan (label : Option String) (candidates : List Handler) : List (Handler × Phase) :=
  match candidates.findIdx? fun h => some h.suiteId = label with
  | none => candidates.map (·, .fallback)
  -- the targeted candidate is not tried a second time
  | some index =>
    (candidates[index]?.map (·, Phase.targeted)).toList ++
      (candidates.eraseIdx index).map (·, .fallback)

/-! ## Attempts -/

/-- Tries one handler. -/
def attempt (h : Handler) (files : FileSystem) (blob : Bytes) (credentials : Credentials)
    (label : LabelMatch) (cache : StretchCache) :
    Logged (Except AttemptFailure Bytes × StretchCache) :=
  match h.parse blob with
  | .error _ => pure (.error .malformed, cache)
  | .ok bundle => do
    let (result, cache) ← h.decryptWith files bundle credentials label cache
    return (result.mapError fun _ => .decryption, cache)

/-- The report about an attempt that succeeded. -/
def decrypted (h : Handler) (phase : Phase) : Event where
  level := .debug
  target := "crypto::orchestrator"
  message := "Bundle decrypted"
  fields := [("suite_id", .text h.suiteId), ("phase", .text phase.name)]

/-- The report about an attempt that failed. -/
def rejected (h : Handler) (phase : Phase) (failure : AttemptFailure) : Event where
  level := .debug
  target := "crypto::orchestrator"
  message := "Decryption attempt rejected"
  fields := [("suite_id", .text h.suiteId), ("phase", .text phase.name),
    ("failure", .text failure.name)]

/-- What came of a search. -/
structure Outcome where
  payload : Option Payload
  records : List AttemptRecord
  cache : StretchCache

/-- An outcome with one earlier attempt. -/
def Outcome.after (o : Outcome) (record : AttemptRecord) : Outcome :=
  { o with records := record :: o.records }

/-- Makes attempts until one succeeds. -/
def tryAll (files : FileSystem) (blob : Bytes) (credentials : Credentials) :
    List (Handler × Phase) → StretchCache → Logged Outcome
  | [], cache => return ⟨none, [], cache⟩
  | (h, phase) :: rest, cache => do
    let (result, cache) ← attempt h files blob credentials phase.label cache
    match result with
    | .ok plaintext =>
      Logged.report (decrypted h phase)
      return ⟨some ⟨plaintext, h.suiteId⟩, [⟨h.suiteId, phase, none⟩], cache⟩
    | .error failure =>
      Logged.report (rejected h phase failure)
      let outcome ← tryAll files blob credentials rest cache
      return outcome.after ⟨h.suiteId, phase, some failure⟩

/-! ## The search -/

/-- The report that the header cannot be read. -/
def unreadableHeader (problem : Header.Problem) : Event where
  level := .debug
  target := "crypto::orchestrator"
  message := "Bundle header unreadable, skipping targeted phase"
  fields := [("error", .text (Error.malformedBundle problem.message).message)]

/-- The report that no candidate could open the bundle. -/
def exhausted (records : List AttemptRecord) (cache : StretchCache) : Event where
  level := .warn
  target := "crypto::orchestrator"
  message := "No candidate suite could decrypt the bundle"
  fields := [("attempted", .text (Text.quotedList (records.map (·.suiteId)))),
    ("malformed", .number (records.countP fun r => r.failure = some .malformed)),
    ("targeted", .flag (records.any fun r => r.phase = .targeted)),
    ("stretches", .number cache.stretches)]

/-- The suite that the header of a bundle names. -/
def labelOf (blob : Bytes) : Logged (Option String) :=
  match Header.read blob with
  | .ok (header, _) => pure (some header.suiteId)
  | .error problem => do
    Logged.report (unreadableHeader problem)
    return none

/-- Searches the candidates for one that opens a bundle. -/
def run (files : FileSystem) (candidates : List Handler) (blob : Bytes)
    (credentials : Credentials) (cache : StretchCache) : Logged Outcome := do
  let label ← labelOf blob
  let outcome ← tryAll files blob credentials (plan label candidates) cache
  if outcome.payload.isNone then Logged.report (exhausted outcome.records outcome.cache)
  return outcome

/-- The answer of a search to its caller. -/
def Outcome.result (o : Outcome) : Except Error Payload :=
  match o.payload with
  | some payload => .ok payload
  | none => .error .decryptionFailed

end Search

end AgileSeal
