import AgileSeal.Error
import AgileSeal.Suite.Algorithm
import AgileSeal.Text.Utf8

set_option autoImplicit false

/-! # Suites

A suite is an id and one algorithm for each role. A configuration gives the algorithms by
name (`SuiteNames`); `SuiteDefinition.read` either finds every algorithm or says which name is
wrong. The description of a suite for display (`SuiteInfo`) uses the canonical names, and
reading those names gives the same suite again (`read_info`).
-/

namespace AgileSeal

/-- The names of the algorithms of a suite, as a configuration gives them. -/
structure SuiteNames where
  classicalKem : String
  pqcKem : String
  symmetric : String
  kdf : String
  mode : String
  passphraseKdf : Option String
deriving DecidableEq

/-- A suite with its algorithms. -/
structure SuiteDefinition where
  id : String
  classicalKem : ClassicalKem
  pqcKem : PqcKem
  symmetric : SymmetricCipher
  kdf : KeyDerivation
  passphraseKdf : PassphraseKdf
  mode : KeyMode
deriving DecidableEq

/-- A name that is wrong is an error of the configuration. -/
def NameProblem.toError (problem : NameProblem) : Error := .configuration problem.message

/-- The most bytes of a suite id. -/
def maxSuiteIdLength : Nat := 255

/-- Why a suite cannot be read. -/
inductive SuiteProblem
  | emptyId
  | longId
  | name (id : String) (problem : NameProblem)
deriving DecidableEq

/-- The wording of a problem. -/
def SuiteProblem.message : SuiteProblem → String
  | .emptyId => "suite id cannot be empty"
  | .longId => "suite id is longer than " ++ toString maxSuiteIdLength ++ " bytes"
  | .name id problem => "suite `" ++ id ++ "`: " ++ problem.message

namespace SuiteDefinition

/-- Checks an id: it is not all blanks and not too long. -/
def checkId (id : String) : Except SuiteProblem Unit :=
  if Text.isAllBlank id then .error .emptyId
  else if maxSuiteIdLength < (Text.utf8 id).length then .error .longId
  else .ok ()

/-- The algorithm for a role of the suite `id`. -/
def readName {α : Type} [Algorithm α] (id text : String) : Except SuiteProblem α :=
  (Algorithm.ofName? text).mapError (SuiteProblem.name id)

/-- The stretching of passphrases, Argon2id where none is named. -/
def readStretching (id : String) : Option String → Except SuiteProblem PassphraseKdf
  | some text => readName id text
  | none => .ok .argon2id

/-- The suite that an id and names of algorithms describe. -/
def read (id : String) (names : SuiteNames) : Except SuiteProblem SuiteDefinition := do
  checkId id
  let classicalKem ← readName id names.classicalKem
  let pqcKem ← readName id names.pqcKem
  let symmetric ← readName id names.symmetric
  let kdf ← readName id names.kdf
  let passphraseKdf ← readStretching id names.passphraseKdf
  let mode ← readName id names.mode
  return { id, classicalKem, pqcKem, symmetric, kdf, passphraseKdf, mode }

/-- Reads a suite of a configuration. -/
def ofNames (id : String) (names : SuiteNames) : Except Error SuiteDefinition :=
  (read id names).mapError fun problem => .configuration problem.message

end SuiteDefinition

/-! ## Display -/

/-- What may be shown of a suite: its id and the canonical names of its algorithms. -/
structure SuiteInfo where
  id : String
  classicalKem : String
  pqcKem : String
  symmetric : String
  kdf : String
  passphraseKdf : String
  mode : String
deriving DecidableEq

/-- The description of a suite. -/
def SuiteDefinition.info (s : SuiteDefinition) : SuiteInfo where
  id := s.id
  classicalKem := Algorithm.name s.classicalKem
  pqcKem := Algorithm.name s.pqcKem
  symmetric := Algorithm.name s.symmetric
  kdf := Algorithm.name s.kdf
  passphraseKdf := Algorithm.name s.passphraseKdf
  mode := Algorithm.name s.mode

/-- The names of a description, in the form of a configuration. -/
def SuiteInfo.names (i : SuiteInfo) : SuiteNames where
  classicalKem := i.classicalKem
  pqcKem := i.pqcKem
  symmetric := i.symmetric
  kdf := i.kdf
  mode := i.mode
  passphraseKdf := some i.passphraseKdf

/-- One line about a suite. -/
def SuiteInfo.display (i : SuiteInfo) : String :=
  i.id ++ " (" ++ i.classicalKem ++ " + " ++ i.pqcKem ++ ", " ++ i.symmetric ++ ", " ++ i.kdf ++ ")"

/-- The names in the description of a suite read as the suite. -/
theorem SuiteDefinition.read_info (s : SuiteDefinition) (h : checkId s.id = .ok ()) :
    read s.id s.info.names = .ok s := by
  unfold read
  rw [h]
  simp only [SuiteDefinition.info, SuiteInfo.names, readName, readStretching,
    Algorithm.ofName?_name]
  rfl

end AgileSeal
