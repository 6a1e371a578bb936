import AgileSeal.Proofs.Kem.Agreement

set_option autoImplicit false

/-! # What a key encapsulation answers

A key encapsulation looks at the lengths of its inputs before anything else. Inputs of other lengths
are invalid, and to inputs of the right lengths it answers with a result of known lengths unless
it has an objection of its own (`Kem.Answer`). Diffie-Hellman objects to a secret of zeros and to
nothing else (`Kem.answer_encapsulate_x25519`, `Kem.answer_decapsulate_x25519`). The lattice scheme
has no objections, also not to a ciphertext that was made for another key
(`Kem.answer_encapsulate_kyber768`, `Kem.answer_decapsulate_kyber768`).
-/

namespace AgileSeal

namespace Kem

/-! ## Answers -/

/-- The answer of a primitive to inputs whose lengths are right if `fit` holds: `objection` is
what it has against inputs of the right lengths and `shape` the shape of its results. -/
inductive Answer {α : Type} (fit : Prop) (objection : Option PrimitiveError) (shape : α → Prop) :
    Except PrimitiveError α → Prop
  | invalid (misfit : ¬fit) (detail : String) :
    Answer fit objection shape (.error (.invalidInput detail))
  | objected (hfit : fit) {reason : PrimitiveError} (hreason : objection = some reason) :
    Answer fit objection shape (.error reason)
  | delivered (hfit : fit) (hnone : objection = none) {a : α} (ha : shape a) :
    Answer fit objection shape (.ok a)

namespace Answer

variable {α β : Type} {fit : Prop} {objection : Option PrimitiveError} {shape : α → Prop}
  {r : Except PrimitiveError α}

theorem map (h : Answer fit objection shape r) {f : α → β} {shape' : β → Prop}
    (hf : ∀ a, shape a → shape' (f a)) : Answer fit objection shape' (r.map f) := by
  cases h with
  | invalid misfit detail => exact .invalid misfit detail
  | objected hfit hreason => exact .objected hfit hreason
  | delivered hfit hnone ha => exact .delivered hfit hnone (hf _ ha)

/-- A check of the lengths before an operation that has none of its own. -/
theorem checked [Decidable fit] (h : Answer True objection shape r) (detail : String) :
    Answer fit objection shape (if fit then r else .error (.invalidInput detail)) := by
  by_cases hfit : fit
  · rw [if_pos hfit]
    cases h with
    | invalid misfit => exact absurd trivial misfit
    | objected _ hreason => exact .objected hfit hreason
    | delivered _ hnone ha => exact .delivered hfit hnone ha
  · rw [if_neg hfit]
    exact .invalid hfit detail

/-- Inputs of the right lengths have a result or meet with an objection. -/
theorem ok_or_objection (h : Answer fit objection shape r) (hfit : fit) :
    (∃ a, r = .ok a) ∨ ∃ reason, objection = some reason ∧ r = .error reason := by
  cases h with
  | invalid misfit => exact absurd hfit misfit
  | objected _ hreason => exact .inr ⟨_, hreason, rfl⟩
  | delivered => exact .inl ⟨_, rfl⟩

end Answer

variable {k : Kem} {objection : Option PrimitiveError}

theorem answer_encapsulate {publicKey : Bytes} {s : RandomStream} {shape : Bytes × Bytes → Prop}
    (h : Answer True objection shape (k.transport publicKey (s.segment s.position seedLength))) :
    Answer (publicKey.length = k.publicKeyLength) objection shape
      (k.encapsulate publicKey s).1 := by
  rw [encapsulate, apply_ite Prod.fst]
  exact h.checked _

theorem answer_decapsulate {privateKey encapsulated : Bytes} {shape : Bytes → Prop}
    (h : Answer True objection shape (k.recover privateKey encapsulated)) :
    Answer (privateKey.length = k.privateKeyLength ∧ encapsulated.length = k.encapsulatedLength)
      objection shape (k.decapsulate privateKey encapsulated) :=
  h.checked _

/-! ## Diffie-Hellman -/

/-- What Diffie-Hellman has against a shared secret. -/
def objectionTo (secret : Bytes) (refusal : String → PrimitiveError) : Option PrimitiveError :=
  if secret = Bytes.zeros 32 then some (refusal nonContributory) else none

theorem objectionTo_eq_some_iff {secret : Bytes} {refusal : String → PrimitiveError}
    {reason : PrimitiveError} : objectionTo secret refusal = some reason ↔
      secret = Bytes.zeros 32 ∧ reason = refusal nonContributory := by
  rw [objectionTo]
  by_cases hzero : secret = Bytes.zeros 32
  · rw [if_pos hzero, Option.some.injEq, and_iff_right hzero]
    exact eq_comm
  · rw [if_neg hzero]
    exact iff_of_false (fun h => by cases h) fun h => hzero h.1

theorem answer_contributory {secret : Bytes} (hlength : secret.length = 32)
    (refusal : String → PrimitiveError) :
    Answer True (objectionTo secret refusal) (fun secret => secret.length = 32)
      (contributory secret refusal) := by
  rw [objectionTo, contributory]
  by_cases hzero : secret = Bytes.zeros 32
  · rw [if_pos hzero, if_pos hzero]
    exact .objected trivial rfl
  · rw [if_neg hzero, if_neg hzero]
    exact .delivered trivial rfl hlength

theorem answer_transport_x25519 (publicKey random : Bytes) :
    Answer True (objectionTo (X25519.multiply random publicKey) .encapsulation)
      (fun result => result.1.length = 32 ∧ result.2.length = 32)
      (x25519.transport publicKey random) :=
  (answer_contributory (X25519.length_multiply random publicKey) _).map fun _ hsecret =>
    ⟨X25519.length_publicKey random, hsecret⟩

/-- Encapsulation to a point draws a scalar and multiplies the point with it. -/
theorem answer_encapsulate_x25519 (publicKey : Bytes) (s : RandomStream) :
    Answer (publicKey.length = 32)
      (objectionTo (X25519.multiply (s.segment s.position seedLength) publicKey) .encapsulation)
      (fun result => result.1.length = 32 ∧ result.2.length = 32)
      (x25519.encapsulate publicKey s).1 :=
  answer_encapsulate (k := x25519) (answer_transport_x25519 _ _)

theorem answer_decapsulate_x25519 (privateKey encapsulated : Bytes) :
    Answer (privateKey.length = 32 ∧ encapsulated.length = 32)
      (objectionTo (X25519.multiply privateKey encapsulated) .decapsulation)
      (fun secret => secret.length = 32) (x25519.decapsulate privateKey encapsulated) :=
  answer_decapsulate (k := x25519)
    (answer_contributory (X25519.length_multiply privateKey encapsulated) _)

/-! ## The lattice scheme -/

theorem answer_encapsulate_kyber768 (publicKey : Bytes) (s : RandomStream) :
    Answer (publicKey.length = 1184) none
      (fun result => result.1.length = 1088 ∧ result.2.length = 32)
      (kyber768.encapsulate publicKey s).1 :=
  answer_encapsulate (k := kyber768) (.delivered trivial rfl
    ⟨Kyber.length_encapsulate _ _, Vector.length_toList⟩)

/-- A ciphertext that does not belong to the private key has a secret as well. -/
theorem answer_decapsulate_kyber768 (privateKey encapsulated : Bytes) :
    Answer (privateKey.length = 2400 ∧ encapsulated.length = 1088) none
      (fun secret => secret.length = 32) (kyber768.decapsulate privateKey encapsulated) :=
  answer_decapsulate (k := kyber768) (.delivered trivial rfl Vector.length_toList)

end Kem

/-! ## The key encapsulations of a suite -/

/-- Diffie-Hellman refuses to transport a secret of zeros, and no other. -/
theorem ClassicalKem.transport_cases (k : ClassicalKem) (publicKey random : Bytes) :
    (∃ shared, k.kem.transport publicKey random = .ok shared) ∨
      X25519.multiply random publicKey = Bytes.zeros 32 ∧
        k.kem.transport publicKey random = .error (.encapsulation Kem.nonContributory) := by
  cases k with
  | x25519 =>
      rcases (Kem.answer_transport_x25519 publicKey random).ok_or_objection trivial with
        hok | ⟨reason, hreason, herror⟩
      · exact .inl hok
      · obtain ⟨hzero, rfl⟩ := Kem.objectionTo_eq_some_iff.mp hreason
        exact .inr ⟨hzero, herror⟩

/-- Diffie-Hellman with inputs of the right lengths refuses a secret of zeros only. -/
theorem ClassicalKem.exists_decapsulate (k : ClassicalKem) {privateKey encapsulated : Bytes}
    (hprivate : privateKey.length = k.kem.privateKeyLength)
    (hencapsulated : encapsulated.length = k.kem.encapsulatedLength) :
    (∃ secret, k.kem.decapsulate privateKey encapsulated = .ok secret) ∨
      k.kem.decapsulate privateKey encapsulated
        = .error (.decapsulation Kem.nonContributory) := by
  cases k with
  | x25519 =>
      rcases (Kem.answer_decapsulate_x25519 privateKey encapsulated).ok_or_objection
        ⟨hprivate, hencapsulated⟩ with hok | ⟨reason, hreason, herror⟩
      · exact .inl hok
      · obtain ⟨-, rfl⟩ := Kem.objectionTo_eq_some_iff.mp hreason
        exact .inr herror

theorem PqcKem.exists_transport (k : PqcKem) (publicKey random : Bytes) :
    ∃ result, k.kem.transport publicKey random = .ok result := by
  cases k with
  | kyber768 => exact ⟨_, Kem.kyber768_transport publicKey random⟩

/-- The lattice scheme recovers a secret from all inputs of the right lengths. -/
theorem PqcKem.exists_decapsulate (k : PqcKem) {privateKey encapsulated : Bytes}
    (hprivate : privateKey.length = k.kem.privateKeyLength)
    (hencapsulated : encapsulated.length = k.kem.encapsulatedLength) :
    ∃ secret, k.kem.decapsulate privateKey encapsulated = .ok secret := by
  cases k with
  | kyber768 =>
      rcases (Kem.answer_decapsulate_kyber768 privateKey encapsulated).ok_or_objection
        ⟨hprivate, hencapsulated⟩ with hok | ⟨reason, hreason, -⟩
      · exact hok
      · cases hreason

end AgileSeal
