import AgileSeal.Environment
import AgileSeal.Error
import AgileSeal.Event
import AgileSeal.Text.Blank
import AgileSeal.Text.Natural

set_option autoImplicit false

/-! # Parameters of encryption

What new encryptions cost and how long their salts are. The parameters have defaults, can be
overridden by environment variables and are checked before use. An override that is no
number of the field's width is reported and ignored.
-/

namespace AgileSeal

/-- The cost of stretching a passphrase and the length of salts in bytes. -/
structure Params where
  argon2Memory : UInt32
  argon2Iterations : UInt32
  argon2Parallelism : UInt32
  pbkdf2Iterations : UInt32
  saltLength : UInt64
deriving DecidableEq

namespace Params

/-- The parameters used where nothing else is said: 64 MiB, three passes and four lanes, or
100,000 iterations; salts of 32 bytes. -/
def default : Params where
  argon2Memory := 65536
  argon2Iterations := 3
  argon2Parallelism := 4
  pbkdf2Iterations := 100000
  saltLength := 32

/-! ## Limits -/

/-- The least length of a salt. -/
def minSaltLength : UInt64 := 16

/-- The most memory, in KiB. -/
def maxArgon2Memory : UInt32 := 1048576

/-- The most passes over the memory. -/
def maxArgon2Iterations : UInt32 := 32

/-- The most lanes. -/
def maxArgon2Parallelism : UInt32 := 64

/-- The most iterations of PBKDF2. -/
def maxPbkdf2Iterations : UInt32 := 10000000

/-- What is wrong with parameters. -/
inductive Problem
  | shortSalt (length : UInt64)
  | zeroArgon2
  | smallMemory (least : UInt32)
  | zeroPbkdf2
  | costly
deriving DecidableEq

/-- The wording of a problem. -/
def Problem.message : Problem → String
  | .shortSalt length =>
    "salt_length must be at least " ++ toString minSaltLength ++ " bytes, got " ++ toString length
  | .zeroArgon2 => "argon2 iterations and parallelism must be non-zero"
  | .smallMemory least =>
    "argon2_memory_kib must be at least 8 * parallelism (" ++ toString least ++ ")"
  | .zeroPbkdf2 => "pbkdf2_iterations must be non-zero"
  | .costly => "passphrase stretching cost exceeds the supported maximum"

/-- The first problem of parameters, if they have one. The product of eight and the lanes keeps
its low 32 bits, as in a release build; a build with overflow checks stops here for 2^29 lanes
or more. Neither accepts so many. -/
def problem? (p : Params) : Option Problem :=
  if p.saltLength < minSaltLength then some (.shortSalt p.saltLength)
  else if p.argon2Iterations = 0 ∨ p.argon2Parallelism = 0 then some .zeroArgon2
  else if p.argon2Memory < 8 * p.argon2Parallelism then
    some (.smallMemory (8 * p.argon2Parallelism))
  else if p.pbkdf2Iterations = 0 then some .zeroPbkdf2
  else if maxArgon2Memory < p.argon2Memory ∨ maxArgon2Iterations < p.argon2Iterations ∨
      maxArgon2Parallelism < p.argon2Parallelism ∨ maxPbkdf2Iterations < p.pbkdf2Iterations then
    some .costly
  else none

/-- Checks parameters. -/
def validate (p : Params) : Except Error Unit :=
  match p.problem? with
  | some problem => .error (.configuration problem.message)
  | none => .ok ()

theorem validate_eq_ok_iff (p : Params) : p.validate = .ok () ↔ p.problem? = none := by
  unfold validate
  split <;> simp_all

/-! ## Overrides -/

/-- The report about a variable that is no number of its width. -/
def ignoredVariable (name : String) : Event where
  level := .warn
  target := "config"
  message := "Ignoring unparseable value"
  fields := [("variable", .text name)]

/-- The number below `bound` that a variable gives. -/
def override (env : Environment) (bound : Nat) (name : String) : Logged (Option Nat) :=
  match env.get? name with
  | none => pure none
  | some text =>
    match Text.naturalBelow? bound (Text.trimChars text.toList) with
    | some n => pure (some n)
    | none => do
      Logged.report (ignoredVariable name)
      return none

/-- The 32-bit number a variable gives, or the one given. -/
def override32 (env : Environment) (name : String) (otherwise : UInt32) : Logged UInt32 := do
  let n ← override env UInt32.size name
  return (n.map UInt32.ofNat).getD otherwise

/-- The 64-bit number a variable gives, or the one given. -/
def override64 (env : Environment) (name : String) (otherwise : UInt64) : Logged UInt64 := do
  let n ← override env UInt64.size name
  return (n.map UInt64.ofNat).getD otherwise

/-- The parameters with the overrides of an environment. -/
def withOverrides (p : Params) (env : Environment) : Logged Params := do
  let argon2Memory ← override32 env "AGILITY_ARGON2_MEMORY_KIB" p.argon2Memory
  let argon2Iterations ← override32 env "AGILITY_ARGON2_ITERATIONS" p.argon2Iterations
  let argon2Parallelism ← override32 env "AGILITY_ARGON2_PARALLELISM" p.argon2Parallelism
  let pbkdf2Iterations ← override32 env "AGILITY_PBKDF2_ITERATIONS" p.pbkdf2Iterations
  let saltLength ← override64 env "AGILITY_SALT_LENGTH" p.saltLength
  return { argon2Memory, argon2Iterations, argon2Parallelism, pbkdf2Iterations, saltLength }

end Params

end AgileSeal
