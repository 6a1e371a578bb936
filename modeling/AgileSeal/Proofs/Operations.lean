import AgileSeal.Error
import AgileSeal.Event

set_option autoImplicit false

/-! # Operations step by step

A computation that may fail succeeds when its steps do (`bind_eq_ok_iff` and its like for `map`
and `mapError`), and it fails in no other way than they do (`FailsOnly.bind`). The operations of an
engine and of the service have a state and report events besides: their value is computed bind by
bind (`Stateful.value_bind`), and one that succeeds is taken apart in the same way
(`Stateful.bind_eq_ok`). Events never matter for the value; those of an operation are the events of
its steps (`Stateful.events_bind_ok`).
-/

namespace AgileSeal

section

variable {ε ε' α β : Type}

theorem bind_eq_ok_iff {x : Except ε α} {f : α → Except ε β} {b : β} :
    x >>= f = .ok b ↔ ∃ a, x = .ok a ∧ f a = .ok b := by
  cases x with
  | error e =>
      constructor
      · intro h
        cases h
      · rintro ⟨a, h, -⟩
        cases h
  | ok a =>
      constructor
      · intro h
        exact ⟨a, rfl, h⟩
      · rintro ⟨a', h, hf⟩
        cases h
        exact hf

/-- There is no first problem when this one is not there and no later one is. -/
theorem ite_some_eq_none_iff {p : Prop} [Decidable p] {a : α} {rest : Option α} :
    (if p then some a else rest) = none ↔ ¬p ∧ rest = none := by
  by_cases hp : p
  · rw [if_pos hp]
    simp [hp]
  · rw [if_neg hp, and_iff_right hp]

/-- After a step that succeeds comes what follows it. -/
theorem bind_of_ok {x : Except ε α} {a : α} (h : x = .ok a) (f : α → Except ε β) :
    x >>= f = f a := by
  rw [h]
  rfl

/-- A computation fails when its first step does, or when what follows it does. -/
theorem bind_eq_error_iff {x : Except ε α} {f : α → Except ε β} {e : ε} :
    x >>= f = .error e ↔ x = .error e ∨ ∃ a, x = .ok a ∧ f a = .error e := by
  cases x with
  | error e' =>
      constructor
      · intro h
        exact .inl (congrArg Except.error (Except.error.inj h))
      · rintro (h | ⟨a, h, -⟩)
        · exact congrArg Except.error (Except.error.inj h)
        · cases h
  | ok a =>
      constructor
      · intro h
        exact .inr ⟨a, rfl, h⟩
      · rintro (h | ⟨a', h, hf⟩)
        · cases h
        · cases h
          exact hf

/-- What follows a check runs when the check passes. -/
theorem check_bind_eq_ok_iff {check : Except ε Unit} {f : Unit → Except ε β} {b : β} :
    check >>= f = .ok b ↔ check = .ok () ∧ f () = .ok b := by
  rw [bind_eq_ok_iff]
  constructor
  · rintro ⟨⟨⟩, h⟩
    exact h
  · intro h
    exact ⟨(), h⟩

/-- A failure is one of a check or, when the check passes, of what follows it. -/
theorem check_bind_eq_error_iff {check : Except ε Unit} {f : Unit → Except ε β} {e : ε} :
    check >>= f = .error e ↔ check = .error e ∨ (check = .ok () ∧ f () = .error e) := by
  rw [bind_eq_error_iff]
  refine or_congr_right ?_
  constructor
  · rintro ⟨⟨⟩, h⟩
    exact h
  · intro h
    exact ⟨(), h⟩

/-- A computation that gives up fails with what it gives up with. -/
theorem throw_eq_error_iff {e e' : ε} : (throw e' : Except ε α) = .error e ↔ e = e' := by
  constructor
  · intro h
    exact (Except.error.inj h).symm
  · rintro rfl
    rfl

theorem map_eq_ok_iff {x : Except ε α} {f : α → β} {b : β} :
    x.map f = .ok b ↔ ∃ a, x = .ok a ∧ f a = b := by
  cases x with
  | error e =>
      constructor
      · intro h
        cases h
      · rintro ⟨a, h, -⟩
        cases h
  | ok a =>
      constructor
      · intro h
        exact ⟨a, rfl, Except.ok.inj h⟩
      · rintro ⟨a', h, rfl⟩
        cases h
        rfl

theorem mapError_eq_ok_iff {x : Except ε α} {f : ε → ε'} {a : α} :
    x.mapError f = .ok a ↔ x = .ok a := by
  cases x with
  | error e =>
      constructor <;>
      · intro h
        cases h
  | ok a' =>
      constructor <;>
      · intro h
        cases h
        rfl

theorem mapError_eq_error_iff {x : Except ε α} {f : ε → ε'} {e' : ε'} :
    x.mapError f = .error e' ↔ ∃ e, x = .error e ∧ f e = e' := by
  cases x with
  | error e =>
      constructor
      · intro h
        exact ⟨e, rfl, Except.error.inj h⟩
      · rintro ⟨_, h, rfl⟩
        cases h
        rfl
  | ok a =>
      constructor
      · intro h
        cases h
      · rintro ⟨e, h, -⟩
        cases h

theorem toOption_eq_some_iff {x : Except ε α} {a : α} : x.toOption = some a ↔ x = .ok a := by
  cases x with
  | error e => exact iff_of_false (fun h => by cases h) (fun h => by cases h)
  | ok a' =>
      constructor <;>
      · intro h
        cases h
        rfl

/-- Computations that succeed together. -/
theorem ok_or_error_of_isOk_eq {x : Except ε α} {y : Except ε' β} (h : x.isOk = y.isOk) :
    (∃ a b, x = .ok a ∧ y = .ok b) ∨ ∃ e e', x = .error e ∧ y = .error e' := by
  cases x with
  | error e =>
      cases y with
      | error e' => exact .inr ⟨e, e', rfl, rfl⟩
      | ok b => cases h
  | ok a =>
      cases y with
      | error e' => cases h
      | ok b => exact .inl ⟨a, b, rfl, rfl⟩

end

/-! ## Failures -/

/-- A result that, if it is a failure, is one of the allowed errors. -/
def FailsOnly {α : Type} (r : Except Error α) (allowed : Error → Prop) : Prop :=
  ∀ e, r = .error e → allowed e

namespace FailsOnly

variable {ε α β : Type} {allowed : Error → Prop}

theorem ok (a : α) : FailsOnly (.ok a) allowed := by
  intro e h
  cases h

theorem error {e : Error} (h : allowed e) : FailsOnly (.error e : Except Error α) allowed := by
  intro e' h'
  cases h'
  exact h

theorem mapError {f : ε → Error} (h : ∀ e, allowed (f e)) (r : Except ε α) :
    FailsOnly (r.mapError f) allowed := by
  cases r with
  | ok a => exact .ok a
  | error e => exact .error (h e)

theorem bind {r : Except Error α} {f : α → Except Error β} (hr : FailsOnly r allowed)
    (hf : ∀ a, FailsOnly (f a) allowed) : FailsOnly (r >>= f) allowed := by
  intro e h
  rcases bind_eq_error_iff.mp h with hfirst | ⟨a, -, hnext⟩
  · exact hr e hfirst
  · exact hf a e hnext

theorem map {r : Except Error α} (hr : FailsOnly r allowed) (f : α → β) :
    FailsOnly (r.map f) allowed := by
  cases r with
  | ok a => exact .ok (f a)
  | error e => exact .error (hr e rfl)

/-- Such a result is a value or one of the errors. -/
theorem ok_or_error {r : Except Error α} (h : FailsOnly r allowed) :
    (∃ a, r = .ok a) ∨ ∃ e, allowed e ∧ r = .error e := by
  cases r with
  | ok a => exact .inl ⟨a, rfl⟩
  | error e => exact .inr ⟨e, h e rfl, rfl⟩

/-- If only one error is allowed, it is this one. -/
theorem ok_or_only {r : Except Error α} {e : Error} (h : FailsOnly r (· = e)) :
    (∃ a, r = .ok a) ∨ r = .error e := by
  rcases h.ok_or_error with hok | ⟨e', rfl, herror⟩
  · exact .inl hok
  · exact .inr herror

end FailsOnly

/-! ## State and events -/

/-- An operation with a state of type `τ`. -/
abbrev Stateful (τ α : Type) := ExceptT Error (StateT τ Logged) α

namespace Stateful

variable {τ α β : Type}

theorem value_bind (x : Stateful τ α) (f : α → Stateful τ β) (s : τ) :
    ((x >>= f) s).value = match (x s).value with
      | (.ok a, s') => (f a s').value
      | (.error e, s') => (.error e, s') := by
  have h : (x >>= f) s = (x s >>= fun p =>
      (ExceptT.bindCont f p.1 : StateT τ Logged (Except Error β)) p.2) := rfl
  rw [h, Logged.value_bind]
  rcases (x s).value with ⟨result, s'⟩
  cases result <;> rfl

theorem value_bind_ok {x : Stateful τ α} {f : α → Stateful τ β} {s s' : τ} {a : α}
    (h : (x s).value = (.ok a, s')) : ((x >>= f) s).value = (f a s').value := by
  rw [value_bind, h]

theorem result_bind_ok {x : Stateful τ α} {f : α → Stateful τ β} {s s' : τ} {a : α}
    (h : (x s).value = (.ok a, s')) : ((x >>= f) s).value.1 = (f a s').value.1 := by
  rw [value_bind_ok h]

/-- After a step that fails nothing follows. -/
theorem result_bind_error {x : Stateful τ α} {f : α → Stateful τ β} {s : τ} {e : Error}
    (h : (x s).value.1 = .error e) : ((x >>= f) s).value.1 = .error e := by
  rw [value_bind]
  rcases hx : (x s).value with ⟨result, s'⟩
  rw [hx] at h
  cases h
  rfl

/-- The events of a step that succeeds stand before those of what follows it. -/
theorem events_bind_ok {x : Stateful τ α} {f : α → Stateful τ β} {s s' : τ} {a : α}
    (h : (x s).value = (.ok a, s')) :
    ((x >>= f) s).events = (x s).events ++ (f a s').events := by
  have hrun : (x >>= f) s = (x s >>= fun p =>
      (ExceptT.bindCont f p.1 : StateT τ Logged (Except Error β)) p.2) := rfl
  rw [hrun, Logged.events_bind, h]
  rfl

/-- A composed operation succeeds when its steps do. -/
theorem bind_eq_ok {x : Stateful τ α} {f : α → Stateful τ β} {s s' : τ} {b : β}
    (h : ((x >>= f) s).value = (.ok b, s')) :
    ∃ a s₁, (x s).value = (.ok a, s₁) ∧ (f a s₁).value = (.ok b, s') := by
  rw [value_bind] at h
  rcases hx : (x s).value with ⟨result, s₁⟩
  rw [hx] at h
  cases result with
  | error e => cases h
  | ok a => exact ⟨a, s₁, rfl, h⟩

end Stateful

end AgileSeal
