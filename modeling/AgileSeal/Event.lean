set_option autoImplicit false

/-! # Events

Operations report what they do as a list of events. The events are returned beside the
value and never influence it: `Logged` is a value with the events that led to it, in order.
-/

namespace AgileSeal

/-- How important an event is. -/
inductive Level
  | trace | debug | info | warn | error
deriving DecidableEq

/-- The value of a field of an event. -/
inductive FieldValue
  | text (s : String)
  | number (n : Nat)
  | flag (b : Bool)
deriving DecidableEq

/-- One event: its level, the part of the program that reports it, a fixed message and the
fields that belong to the case. -/
structure Event where
  level : Level
  target : String
  message : String
  fields : List (String × FieldValue)
deriving DecidableEq

/-- A value and the events reported on the way to it. -/
structure Logged (α : Type) where
  value : α
  events : List Event

namespace Logged

variable {α β : Type}

/-- A value without events. -/
def pure (a : α) : Logged α := ⟨a, []⟩

/-- Goes on with the value; the later events follow the earlier ones. -/
def bind (x : Logged α) (f : α → Logged β) : Logged β :=
  ⟨(f x.value).value, x.events ++ (f x.value).events⟩

instance : Monad Logged where
  pure := Logged.pure
  bind := Logged.bind

/-- Reports one event. -/
def report (e : Event) : Logged Unit := ⟨(), [e]⟩

@[simp] theorem value_pure (a : α) : (Pure.pure a : Logged α).value = a := rfl

@[simp] theorem events_pure (a : α) : (Pure.pure a : Logged α).events = [] := rfl

@[simp] theorem value_bind (x : Logged α) (f : α → Logged β) :
    (x >>= f).value = (f x.value).value := rfl

@[simp] theorem events_bind (x : Logged α) (f : α → Logged β) :
    (x >>= f).events = x.events ++ (f x.value).events := rfl

instance : LawfulMonad Logged := LawfulMonad.mk' Logged
  (fun x => by
    show Logged.bind x (fun a => Logged.pure a) = x
    simp [Logged.bind, Logged.pure])
  (fun a f => by
    show Logged.bind (Logged.pure a) f = f a
    simp [Logged.bind, Logged.pure])
  (fun x f g => by
    show Logged.bind (Logged.bind x f) g = Logged.bind x (fun a => Logged.bind (f a) g)
    simp [Logged.bind, List.append_assoc])

end Logged

end AgileSeal
