import AgileSeal.Handler

set_option autoImplicit false

/-! # Registries

A registry knows which handler answers for which suite id. Under an id stands a handler, or
a factory that makes the handler when it is first asked for. A handler once made is kept and
its factory is not run again; a factory that fails leaves the slot as it was and is run again
the next time.

Factories may have a state of their own, of type `σ`, which they share. It is handed from one
run of a factory to the next.
-/

namespace AgileSeal

/-- Makes the handler of a suite. -/
abbrev Factory (σ : Type) := SuiteDefinition → Params → σ → Except Error Handler × σ

/-- The factory that makes the handler a suite asks for, and has no state. -/
def Factory.standard {σ : Type} : Factory σ := fun suite params s =>
  (Handler.ofDefinition suite params, s)

/-- What is registered under an id. -/
inductive Entry (σ : Type)
  | ready (handler : Handler)
  | factory (suite : SuiteDefinition) (make : Factory σ)

/-- The id an entry was made for. -/
def Entry.suiteId {σ : Type} : Entry σ → String
  | .ready handler => handler.suiteId
  | .factory suite _ => suite.id

/-- An entry and the handler its factory has made. -/
structure Slot (σ : Type) where
  entry : Entry σ
  made : Option Handler

/-- The slots by id, the id for new encryptions and the ids to try when decrypting. -/
structure Registry (σ : Type) where
  active : String
  order : List String
  params : Params
  slots : IdMap (Slot σ)

/-- An operation on a registry and the state of its factories that reports events. -/
abbrev Resolving (σ α : Type) := StateT (Registry σ × σ) Logged α

namespace Registry

variable {σ : Type}

/-- Whether something is registered under an id. -/
def isRegistered (r : Registry σ) (id : String) : Bool := r.slots.contains id

/-- The registered ids, in ascending order. -/
def registeredIds (r : Registry σ) : List String := r.slots.ids

/-- Runs the factory of a slot and keeps what it makes. -/
def make (r : Registry σ) (id : String) (suite : SuiteDefinition) (factory : Factory σ) (s : σ) :
    Except Error Handler × Registry σ × σ :=
  match factory suite r.params s with
  | (.ok handler, s) =>
    -- the slot stays a factory and remembers the handler, whatever id the handler has
    (.ok handler, { r with slots := r.slots.insert id ⟨.factory suite factory, some handler⟩ }, s)
  | (.error e, s) => (.error e, r, s)

/-- The handler of an id, the registry with it and the state of the factories. -/
def find (r : Registry σ) (id : String) (s : σ) : Except Error Handler × Registry σ × σ :=
  match r.slots.get? id with
  | none => (.error (.algorithmNotFound id), r, s)
  | some ⟨.ready handler, _⟩ => (.ok handler, r, s)
  | some ⟨.factory _ _, some handler⟩ => (.ok handler, r, s)
  | some ⟨.factory suite factory, none⟩ => r.make id suite factory s

/-- The handler of an id. -/
def resolve (id : String) : Resolving σ (Except Error Handler) := fun (r, s) =>
  pure (r.find id s)

/-- The complaint about a registry without a suite for new encryptions. -/
def noActive : Error := .configuration "active_encryption_suite_id is not configured"

/-- The handler for new encryptions. -/
def activeHandler : Resolving σ (Except Error Handler) := do
  let (r, _) ← get
  if Text.isAllBlank r.active then return .error noActive
  else resolve r.active

theorem run_activeHandler (r : Registry σ) (s : σ) : (activeHandler.run (r, s)).value =
    if Text.isAllBlank r.active then (.error noActive, r, s) else r.find r.active s := by
  show (StateT.run (if Text.isAllBlank r.active then _ else resolve r.active) (r, s)).value = _
  split <;> rfl

/-- The report about an id without a handler. -/
def skipped (id : String) (e : Error) : Event where
  level := .warn
  target := "crypto::registry"
  message := "Skipping unresolvable decryption candidate"
  fields := [("suite_id", .text id), ("error", .text e.message)]

/-- The handlers of ids, without those that cannot be resolved. -/
def resolveAll : List String → Resolving σ (List Handler)
  | [] => return []
  | id :: rest => do
    match ← resolve id with
    | .ok handler =>
      let handlers ← resolveAll rest
      return handler :: handlers
    | .error e =>
      Logged.report (skipped id e)
      resolveAll rest

/-- The handlers to try when decrypting, in order. An id that is repeated counts at its first
place. -/
def candidates : Resolving σ (List Handler) := do
  let (r, _) ← get
  -- every id is resolved at most once, so it is reported at most once
  resolveAll r.order.eraseDups

end Registry

end AgileSeal
