import AgileSeal.Config.Params
import AgileSeal.Hash.Sha2
import AgileSeal.Kdf.Argon2
import AgileSeal.Kdf.Hmac
import AgileSeal.Suite.Algorithm

set_option autoImplicit false

/-! # Stretching a passphrase

A passphrase is stretched into a 32-byte key at a cost that is recorded with what it
protects, so a later change of the configured cost leaves earlier bundles readable. A cost
read from a bundle is not trusted: `stretchPassphrase` refuses one outside the limits before
any work is done.
-/

namespace AgileSeal

/-- The length of a stretched key. -/
def stretchedLength : Nat := 32

/-- How a passphrase is stretched, and at what cost. -/
inductive StretchCost
  | argon2id (memory iterations parallelism : UInt32)
  | pbkdf2Sha256 (iterations : UInt32)
deriving DecidableEq

namespace StretchCost

/-- The cost that parameters set for a stretching function. -/
def ofParams : PassphraseKdf → Params → StretchCost
  | .argon2id, p => .argon2id p.argon2Memory p.argon2Iterations p.argon2Parallelism
  | .pbkdf2Sha256, p => .pbkdf2Sha256 p.pbkdf2Iterations

/-- The stretching function of a cost. -/
def kdf : StretchCost → PassphraseKdf
  | .argon2id .. => .argon2id
  | .pbkdf2Sha256 _ => .pbkdf2Sha256

theorem kdf_ofParams (kdf : PassphraseKdf) (p : Params) : (ofParams kdf p).kdf = kdf := by
  cases kdf <;> rfl

/-- Whether a cost is within the limits of what will be run, by a multiplication of words. The
lanes are compared with their limit before they are multiplied. -/
def checkLimits {m : Type → Type} [Monad m] (times : UInt32 → UInt32 → m UInt32) :
    StretchCost → m Bool
  | .argon2id memory iterations parallelism => do
    if 1 ≤ iterations && iterations ≤ Params.maxArgon2Iterations && 1 ≤ parallelism &&
        parallelism ≤ Params.maxArgon2Parallelism then
      let least ← times 8 parallelism
      return least ≤ memory && memory ≤ Params.maxArgon2Memory
    else return false
  | .pbkdf2Sha256 iterations => return 1 ≤ iterations && iterations ≤ Params.maxPbkdf2Iterations

/-- Whether a cost is within the limits, by the multiplication that keeps the low bits. -/
def withinLimits (cost : StretchCost) : Bool :=
  Id.run (cost.checkLimits fun a b => pure (a * b))

/-! ## The bare functions -/

/-- Why Argon2id cannot be run. The first four are about its cost. -/
inductive Argon2Problem
  | littleMemory | fewPasses | noLanes | manyLanes
  | longPassword | shortSalt | longSalt
deriving DecidableEq

/-- The wording of a problem. -/
def Argon2Problem.message : Argon2Problem → String
  | .littleMemory => "Argon2 params: memory cost is too small"
  | .fewPasses => "Argon2 params: time cost is too small"
  | .noLanes => "Argon2 params: not enough threads"
  | .manyLanes => "Argon2 params: too many threads"
  | .longPassword => "Argon2 hash: password is too long"
  | .shortSalt => "Argon2 hash: salt is too short"
  | .longSalt => "Argon2 hash: salt is too long"

/-- The first reason why Argon2id cannot be run on inputs of these lengths. -/
def argon2Problem? (memory iterations parallelism passwordLength saltLength : Nat) :
    Option Argon2Problem :=
  -- without lanes the memory is still too small below eight blocks
  if memory < 8 ∨ memory < 8 * parallelism then some .littleMemory
  else if iterations = 0 then some .fewPasses
  else if parallelism = 0 then some .noLanes
  else if 0xffffff < parallelism then some .manyLanes
  else if 0xffffffff < passwordLength then some .longPassword
  else if saltLength < 8 then some .shortSalt
  else if 0xffffffff < saltLength then some .longSalt
  else none

/-- The stretched key of a password and a salt, without the limits on the cost. -/
def stretch (cost : StretchCost) (password salt : Bytes) : Except PrimitiveError Bytes :=
  match cost with
  | .argon2id memory iterations parallelism =>
    match argon2Problem? memory.toNat iterations.toNat parallelism.toNat password.length
        salt.length with
    | some problem => .error (.keyDerivation problem.message)
    | none =>
      .ok (Argon2.derive ⟨memory.toNat, iterations.toNat, parallelism.toNat⟩ stretchedLength
        password salt)
  | .pbkdf2Sha256 iterations => .ok (sha256.pbkdf2 password salt iterations.toNat).toList

/-- Every stretched key has 32 bytes. -/
theorem length_of_stretch (cost : StretchCost) (password salt key : Bytes)
    (h : cost.stretch password salt = .ok key) : key.length = stretchedLength := by
  unfold stretch at h
  split at h
  · split at h
    · simp at h
    · simp only [Except.ok.injEq] at h
      subst h
      exact Argon2.length_derive _ _ _ _
  · simp only [Except.ok.injEq] at h
    subst h
    exact Vector.length_toList

end StretchCost

/-! ## Passphrases -/

/-- The stretched key of a passphrase, which is not empty, and a salt of at least 16 bytes,
at a cost within the limits. -/
def stretchPassphrase (passphrase : String) (salt : Bytes) (cost : StretchCost) :
    Except Error Bytes :=
  if passphrase = "" then .error (.keyManagement "passphrase cannot be empty")
  else if salt.length < Params.minSaltLength.toNat then
    .error (.keyManagement ("passphrase salt too short: expected at least " ++
      toString Params.minSaltLength ++ ", got " ++ toString salt.length))
  else if cost.withinLimits = false then
    .error (.keyManagement "passphrase stretching cost out of range")
  else (cost.stretch (Text.utf8 passphrase) salt).mapError fun e => .keyManagement e.message

end AgileSeal
