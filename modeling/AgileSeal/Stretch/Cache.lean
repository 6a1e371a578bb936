import AgileSeal.Stretch.Cost

set_option autoImplicit false

/-! # Stretched keys of one decryption

Several suites may be tried on one bundle, and those that share a salt and a cost share the
stretched key. A cache keeps the keys of one decryption together with all they were computed
from, and counts how often a passphrase was really stretched. A failure leaves the cache as
it was (`stretch_error`).
-/

namespace AgileSeal

/-- A stretched key and what it was computed from. -/
structure StretchEntry where
  passphrase : String
  salt : Bytes
  cost : StretchCost
  key : Bytes

/-- The stretched keys so far, the oldest first, and the count of computations. -/
structure StretchCache where
  entries : List StretchEntry
  stretches : Nat

namespace StretchCache

/-- Nothing has been stretched yet. -/
def empty : StretchCache := ⟨[], 0⟩

/-- The key computed earlier from the same passphrase, salt and cost. -/
def find? (c : StretchCache) (passphrase : String) (salt : Bytes) (cost : StretchCost) :
    Option Bytes :=
  (c.entries.find? fun e => e.cost = cost ∧ e.salt = salt ∧ e.passphrase = passphrase).map (·.key)

/-- The stretched key, computed only if it is not in the cache. -/
def stretch (c : StretchCache) (passphrase : String) (salt : Bytes) (cost : StretchCost) :
    Except Error Bytes × StretchCache :=
  match c.find? passphrase salt cost with
  | some key => (.ok key, c)
  | none =>
    match stretchPassphrase passphrase salt cost with
    | .ok key => (.ok key, ⟨c.entries ++ [⟨passphrase, salt, cost, key⟩], c.stretches + 1⟩)
    | .error e => (.error e, c)

/-- What stretching does with a cache: it finds the key, or it computes the key and keeps it, or it
fails and keeps nothing. -/
theorem stretch_cases (c : StretchCache) (passphrase : String) (salt : Bytes) (cost : StretchCost) :
    (∃ key, c.find? passphrase salt cost = some key ∧
      c.stretch passphrase salt cost = (.ok key, c)) ∨
    (∃ key, c.find? passphrase salt cost = none ∧
      stretchPassphrase passphrase salt cost = .ok key ∧ c.stretch passphrase salt cost
        = (.ok key, ⟨c.entries ++ [⟨passphrase, salt, cost, key⟩], c.stretches + 1⟩)) ∨
    ∃ e, c.find? passphrase salt cost = none ∧
      stretchPassphrase passphrase salt cost = .error e ∧
      c.stretch passphrase salt cost = (.error e, c) := by
  rw [stretch]
  cases hfind : c.find? passphrase salt cost with
  | some key => exact .inl ⟨key, rfl, rfl⟩
  | none =>
    cases hstretch : stretchPassphrase passphrase salt cost with
    | ok key => exact .inr (.inl ⟨key, rfl, rfl, rfl⟩)
    | error e => exact .inr (.inr ⟨e, rfl, rfl, rfl⟩)

/-- A failure leaves the cache as it was. -/
theorem stretch_error (c : StretchCache) (passphrase : String) (salt : Bytes) (cost : StretchCost)
    (e : Error) (h : (c.stretch passphrase salt cost).1 = .error e) :
    (c.stretch passphrase salt cost).2 = c := by
  rcases c.stretch_cases passphrase salt cost with ⟨key, -, hfound⟩ | ⟨key, -, -, hnew⟩ |
    ⟨e', -, -, hfails⟩
  · rw [hfound]
  · rw [hnew] at h
    cases h
  · rw [hfails]

end StretchCache

end AgileSeal
