import AgileSeal.Config.Params
import AgileSeal.Suite.Table

set_option autoImplicit false

/-! # Configurations

A configuration names the suite for new encryptions, the suites to try when decrypting, in
order, all suites by id, and the parameters. Checking it looks at its own fields alone;
whether the named suites exist is found out when a registry is built from it.
-/

namespace AgileSeal

/-- A configuration. -/
structure Config where
  active : String
  order : List String
  suites : SuiteTable
  params : Params

namespace Config

/-- A configuration without suites. -/
def new (active : String) (order : List String) (params : Params) : Config :=
  ⟨active, order, IdMap.empty, params⟩

/-- A configuration with one suite more. -/
def addSuite (c : Config) (id : String) (names : SuiteNames) : Except Error Config :=
  (c.suites.add id names).map fun suites => { c with suites }

/-- What is wrong with a configuration. -/
inductive Problem
  | noActive
  | blankInOrder
  | params (problem : Params.Problem)
deriving DecidableEq

/-- The wording of a problem. -/
def Problem.message : Problem → String
  | .noActive => "active_encryption_suite_id is not configured"
  | .blankInOrder => "decryption_attempt_order contains an empty suite id"
  | .params problem => problem.message

/-- The first problem of a configuration, if it has one. -/
def problem? (c : Config) : Option Problem :=
  if Text.isAllBlank c.active then some .noActive
  else if c.order.any Text.isAllBlank then some .blankInOrder
  else c.params.problem?.map .params

/-- Checks a configuration. -/
def validate (c : Config) : Except Error Unit :=
  match c.problem? with
  | some problem => .error (.configuration problem.message)
  | none => .ok ()

theorem validate_eq_ok_iff (c : Config) : c.validate = .ok () ↔ c.problem? = none := by
  unfold validate
  split <;> simp_all

end Config

end AgileSeal
