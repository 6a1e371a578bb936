import AgileSeal.Proofs.Operations
import AgileSeal.Service

set_option autoImplicit false

/-! # Operations look up handlers

Whatever is asked of a service, its registry and the state of its factories change in one way:
handlers are looked up, one id after the other (`Request.looksUp`). So a property of registries that
a look-up preserves holds at any time.
-/

namespace AgileSeal

variable {σ α β : Type}

namespace Registry

/-- A registry and its factories after handlers have been looked up. -/
inductive LookedUp (x : Registry σ × σ) : Registry σ × σ → Prop
  | none : LookedUp x x
  | find {r : Registry σ} {s : σ} (id : String) (h : LookedUp x (r, s)) :
    LookedUp x (r.find id s).2

theorem LookedUp.trans {x y z : Registry σ × σ} (h : LookedUp x y) (h' : LookedUp y z) :
    LookedUp x z := by
  induction h' with
  | none => exact h
  | find id _ ih => exact ih.find id

theorem lookedUp_resolve (id : String) (x : Registry σ × σ) :
    LookedUp x ((resolve id).run x).value.2 := LookedUp.none.find id

theorem lookedUp_activeHandler (x : Registry σ × σ) :
    LookedUp x (activeHandler.run x).value.2 := by
  obtain ⟨r, s⟩ := x
  rw [run_activeHandler]
  split
  · exact .none
  · exact lookedUp_resolve r.active (r, s)

theorem lookedUp_resolveAll (ids : List String) (x : Registry σ × σ) :
    LookedUp x ((resolveAll ids).run x).value.2 := by
  induction ids generalizing x with
  | nil => exact .none
  | cons id rest ih =>
      have hfirst := lookedUp_resolve id x
      rw [resolveAll, StateT.run_bind, Logged.value_bind]
      rcases hvalue : ((resolve id).run x).value with ⟨result, y⟩
      rw [hvalue] at hfirst
      have hrest := ih y
      cases result with
      | ok handler => exact hfirst.trans hrest
      | error e => exact hfirst.trans hrest

theorem lookedUp_candidates (x : Registry σ × σ) : LookedUp x (candidates.run x).value.2 :=
  lookedUp_resolveAll x.1.order.eraseDups x

end Registry

namespace Action

/-- An operation that changes the registry and the factories by looking up handlers only. -/
def LooksUp (m : Action σ α) : Prop :=
  ∀ w, Registry.LookedUp (w.registry, w.factories)
    ((m w).value.2.registry, (m w).value.2.factories)

namespace LooksUp

theorem pure (a : α) : LooksUp (Pure.pure a : Action σ α) := fun _ => .none

theorem bind {m : Action σ α} {f : α → Action σ β} (hm : m.LooksUp) (hf : ∀ a, (f a).LooksUp) :
    (m >>= f).LooksUp := by
  intro w
  have hfirst := hm w
  rw [Stateful.value_bind]
  rcases hvalue : (m w).value with ⟨result, w'⟩
  rw [hvalue] at hfirst
  cases result with
  | error e => exact hfirst
  | ok a => exact hfirst.trans (hf a w')

theorem resolving {m : Resolving σ α} (h : ∀ x, Registry.LookedUp x (m.run x).value.2) :
    (Action.resolving m).LooksUp := fun w => h (w.registry, w.factories)

theorem ofExcept (r : Except Error α) : (Action.ofExcept r : Action σ α).LooksUp :=
  fun _ => .none

theorem sealing (m : Sealing α) : (Action.sealing m : Action σ α).LooksUp := fun _ => .none

theorem filing (m : Filing α) : (Action.filing m : Action σ α).LooksUp := fun _ => .none

theorem logged (m : Logged α) : (Action.logged m : Action σ α).LooksUp := fun _ => .none

theorem files : (Action.files : Action σ FileSystem).LooksUp := fun _ => .none

end LooksUp

end Action

namespace Service

/-- A service answers with what its registry finds. -/
theorem resolve_eq_find (id : String) (w : World σ) :
    (resolve id w).value = ((w.registry.find id w.factories).1,
      { w with
        registry := (w.registry.find id w.factories).2.1
        factories := (w.registry.find id w.factories).2.2 }) := rfl

theorem looksUp_resolve (id : String) : (resolve id : Action σ Handler).LooksUp :=
  (Action.LooksUp.resolving (Registry.lookedUp_resolve id)).bind .ofExcept

theorem looksUp_activeHandler : (activeHandler : Action σ Handler).LooksUp :=
  (Action.LooksUp.resolving Registry.lookedUp_activeHandler).bind .ofExcept

theorem looksUp_encrypt (plaintext : Bytes) (credentials : Credentials) :
    (encrypt plaintext credentials : Action σ Bytes).LooksUp := by
  refine looksUp_activeHandler.bind fun handler => ?_
  refine Action.LooksUp.bind (Action.LooksUp.files.bind fun files => .sealing _) fun bundle => ?_
  exact (Action.LooksUp.logged _).bind fun _ => .ofExcept _

theorem looksUp_search (blob : Bytes) (credentials : Credentials) :
    (search blob credentials : Action σ Search.Outcome).LooksUp := by
  refine (Action.LooksUp.resolving Registry.lookedUp_candidates).bind fun candidates => ?_
  exact Action.LooksUp.files.bind fun files => .logged _

theorem looksUp_decrypt (blob : Bytes) (credentials : Credentials) :
    (decrypt blob credentials : Action σ Payload).LooksUp :=
  (looksUp_search blob credentials).bind fun _ => .ofExcept _

theorem looksUp_reencrypt (blob : Bytes) (old new : Credentials) :
    (reencrypt blob old new : Action σ Bytes).LooksUp := by
  refine (looksUp_decrypt blob old).bind fun payload => ?_
  refine (looksUp_encrypt payload.plaintext new).bind fun migrated => ?_
  refine Action.LooksUp.bind (fun _ => .none) fun w => ?_
  exact (Action.LooksUp.logged _).bind fun _ => .pure migrated

theorem looksUp_canDecrypt (blob : Bytes) : (canDecrypt blob : Action σ Bool).LooksUp := by
  unfold canDecrypt
  cases Bundle.suiteIdOf? blob with
  | none => exact .pure false
  | some id =>
      exact (Action.LooksUp.resolving Registry.lookedUp_candidates).bind fun candidates => .pure _

theorem looksUp_provision (id path : String) : (provision id path : Action σ Unit).LooksUp := by
  refine (looksUp_resolve id).bind fun handler => ?_
  exact (Action.LooksUp.sealing _).bind fun keys => .filing _

end Service

/-- Something that may be asked of a service. -/
inductive Request
  | resolve (id : String)
  | activeHandler
  | candidates
  | activeSuite
  | canDecrypt (blob : Bytes)
  | encrypt (plaintext : Bytes) (credentials : Credentials)
  | decrypt (blob : Bytes) (credentials : Credentials)
  | reencrypt (blob : Bytes) (old new : Credentials)
  | provision (id path : String)

/-- What is left when a request has been answered. -/
def Request.run (request : Request) (w : World σ) : World σ :=
  match request with
  | resolve id => (Service.resolve id w).value.2
  | activeHandler => (Service.activeHandler w).value.2
  | candidates => (Action.resolving Registry.candidates w).value.2
  | activeSuite => (Service.activeSuite w).value.2
  | canDecrypt blob => (Service.canDecrypt blob w).value.2
  | encrypt plaintext credentials => (Service.encrypt plaintext credentials w).value.2
  | decrypt blob credentials => (Service.decrypt blob credentials w).value.2
  | reencrypt blob old new => (Service.reencrypt blob old new w).value.2
  | provision id path => (Service.provision id path w).value.2

/-- **Whatever is asked of a service**, handlers are looked up and nothing else is done to the
registry and its factories. -/
theorem Request.looksUp (request : Request) (w : World σ) :
    Registry.LookedUp (w.registry, w.factories)
      ((request.run w).registry, (request.run w).factories) := by
  cases request with
  | resolve id => exact Service.looksUp_resolve id w
  | activeHandler => exact Service.looksUp_activeHandler w
  | candidates => exact Registry.lookedUp_candidates (w.registry, w.factories)
  | activeSuite => exact Service.looksUp_activeHandler.bind (fun handler => .pure _) w
  | canDecrypt blob => exact Service.looksUp_canDecrypt blob w
  | encrypt plaintext credentials => exact Service.looksUp_encrypt plaintext credentials w
  | decrypt blob credentials => exact Service.looksUp_decrypt blob credentials w
  | reencrypt blob old new => exact Service.looksUp_reencrypt blob old new w
  | provision id path => exact Service.looksUp_provision id path w

end AgileSeal
