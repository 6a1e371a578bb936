import AgileSeal.Config.Basic
import AgileSeal.Registry.Basic

set_option autoImplicit false

/-! # Building a registry

Entries are registered one after the other; a second entry under an id replaces the first.
Building checks the parameters and that the suite for new encryptions has a handler, so a
program with an unusable configuration does not start. Once built, nothing more can be
registered.

A registry built from a configuration leaves out the suites that cannot be read, unless the
one for new encryptions is among them.
-/

namespace AgileSeal

/-- What has been registered so far. -/
structure Builder (σ : Type) where
  active : String
  order : List String
  params : Params
  slots : IdMap (Slot σ)

/-- An operation on what has been registered that may be refused and reports events. What it has
changed before it is refused stays changed. -/
abbrev Registering (σ α : Type) := ExceptT Error (StateT (Builder σ) Logged) α

namespace Builder

variable {σ : Type}

/-- Nothing registered yet. -/
def new (config : Config) : Builder σ := ⟨config.active, config.order, config.params, IdMap.empty⟩

/-! ## Registration -/

/-- The complaint about a blank id. -/
def emptyId : Error := .invalidArgument "suite id cannot be empty"

/-- The complaint about an entry that was made for another id. -/
def foreignEntry (declared id : String) : Error :=
  .invalidArgument ("handler for `" ++ declared ++ "` registered under `" ++ id ++ "`")

/-- The report that an entry was replaced. -/
def replaced (id : String) : Event where
  level := .warn
  target := "crypto::registry"
  message := "Suite registered twice, last registration wins"
  fields := [("suite_id", .text id)]

/-- Puts an entry under the id it was made for. -/
def enter (id : String) (entry : Entry σ) : Registering σ Unit := do
  if Text.isAllBlank id then throw emptyId
  if entry.suiteId ≠ id then throw (foreignEntry entry.suiteId id)
  let b ← get
  set { b with slots := b.slots.insert id ⟨entry, none⟩ }
  if b.slots.contains id then Logged.report (replaced id)

/-- The outcome of a registration: what has been registered by then, or why it was refused. -/
def register (b : Builder σ) (id : String) (entry : Entry σ) :
    Logged (Except Error (Builder σ)) := do
  let (result, b) ← (enter id entry).run.run b
  return result.map fun _ => b

theorem value_register (b : Builder σ) (id : String) (entry : Entry σ) :
    (b.register id entry).value
      = (enter id entry b).value.1.map fun _ => (enter id entry b).value.2 := rfl

/-! ## Building -/

/-- The report that the suite for new encryptions has no handler. -/
def unresolved (active : String) (e : Error) : Event where
  level := .error
  target := "crypto::registry"
  message := "Active encryption suite cannot be resolved"
  fields := [("suite_id", .text active), ("error", .text e.message)]

/-- The report that a registry has been built. -/
def ready (active : String) (count : Nat) : Event where
  level := .debug
  target := "crypto::registry"
  message := "Suite registry ready"
  fields := [("active", .text active), ("registered", .number count)]

/-- The registry, if the suite for new encryptions has a handler, and the state of the
factories. -/
def build (b : Builder σ) (s : σ) : Logged (Except Error (Registry σ) × σ) :=
  match b.params.validate with
  | .error e => pure (.error e, s)
  | .ok () => do
    let unchecked : Registry σ := ⟨b.active, b.order, b.params, b.slots⟩
    let (active, registry, s) ← Registry.activeHandler.run (unchecked, s)
    match active with
    | .error e =>
      Logged.report (unresolved b.active e)
      return (.error e, s)
    | .ok _ =>
      Logged.report (ready b.active b.slots.size)
      return (.ok registry, s)

end Builder

namespace Registry

variable {σ : Type}

/-! ## From a configuration -/

/-- The report that the suite for new encryptions cannot be read. -/
def invalidActive (id : String) (e : Error) : Event where
  level := .error
  target := "crypto::registry"
  message := "Active suite definition is invalid"
  fields := [("suite_id", .text id), ("error", .text e.message)]

/-- The report that another suite cannot be read. -/
def invalidSuite (id : String) (e : Error) : Event where
  level := .warn
  target := "crypto::registry"
  message := "Skipping invalid suite definition"
  fields := [("suite_id", .text id), ("error", .text e.message)]

/-- Registers the standard factory for every suite that can be read. -/
def registerSuites (active : String) :
    List (String × SuiteNames) → Builder σ → Logged (Except Error (Builder σ))
  | [], b => return .ok b
  | (id, names) :: rest, b => do
    match SuiteDefinition.ofNames id names with
    | .ok suite =>
      match ← b.register id (.factory suite Factory.standard) with
      | .ok b => registerSuites active rest b
      | .error e => return .error e
    | .error e =>
      if id = active then
        Logged.report (invalidActive id e)
        return .error e
      else
        Logged.report (invalidSuite id e)
        registerSuites active rest b

/-- The registry of a configuration, and the state of the factories. -/
def ofConfig (config : Config) (s : σ) : Logged (Except Error (Registry σ) × σ) :=
  match config.validate with
  | .error e => pure (.error e, s)
  | .ok () => do
    match ← registerSuites config.active config.suites.entries (.new config) with
    | .error e => return (.error e, s)
    | .ok b => b.build s

end Registry

end AgileSeal
