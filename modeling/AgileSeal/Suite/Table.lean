import AgileSeal.IdMap
import AgileSeal.Suite.Definition

set_option autoImplicit false

/-! # Tables of suites

A configuration describes its suites in a table by id. Adding a suite never replaces one
that is there: a second suite of the same id is refused.
-/

namespace AgileSeal

/-- The suites of a configuration by id. -/
abbrev SuiteTable := IdMap SuiteNames

/-- Why a suite cannot be added to a table. -/
inductive TableProblem
  | emptyId
  | duplicateId (id : String)
deriving DecidableEq

/-- The wording of a problem. -/
def TableProblem.message : TableProblem → String
  | .emptyId => "suite id cannot be empty"
  | .duplicateId id => "duplicate suite id `" ++ id ++ "`"

/-- A table with one suite more. -/
def SuiteTable.add (t : SuiteTable) (id : String) (names : SuiteNames) : Except Error SuiteTable :=
  if id = "" then .error (.configuration TableProblem.emptyId.message)
  else if t.contains id then .error (.configuration (TableProblem.duplicateId id).message)
  else .ok (t.insert id names)

end AgileSeal
