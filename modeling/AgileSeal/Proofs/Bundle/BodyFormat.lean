import AgileSeal.Bundle.Body
import AgileSeal.Proofs.Bytes

set_option autoImplicit false

/-! # The body of a bundle is read back exactly

A reader is *exact* for a writer when it succeeds on precisely the byte strings that begin
with something the writer wrote, and then leaves precisely what follows (`Exact`). This one
property says three things at once: whatever is written is read back, whatever is read has
been written in no other way, and the reader looks at nothing behind the field.

The primitive readers are exact for their writers, and exactness passes from a field to an
optional field and along a sequence of fields. The main statement is `decode_eq_ok_iff`: a
byte string is a body exactly when it is what that body is written as.
-/

namespace AgileSeal.Body

/-! ## Steps of a reader -/

section Steps

variable {α β : Type}

theorem bind_eq_ok (x : Reader α) (f : α → Reader β) (bytes : Bytes) (r : β × Bytes) :
    (x >>= f) bytes = .ok r ↔ ∃ a rest, x bytes = .ok (a, rest) ∧ f a rest = .ok r := by
  show (x bytes >>= fun p => f p.1 p.2) = .ok r ↔ _
  rcases x bytes with e | ⟨a, rest⟩
  · constructor
    · intro h
      cases h
    · rintro ⟨a, rest, h, -⟩
      cases h
  · constructor
    · intro h
      exact ⟨a, rest, rfl, h⟩
    · rintro ⟨a', rest', h, hf⟩
      cases h
      exact hf

theorem map_eq_ok (g : α → β) (x : Reader α) (bytes : Bytes) (b : β) (rest : Bytes) :
    (g <$> x) bytes = .ok (b, rest) ↔ ∃ a, x bytes = .ok (a, rest) ∧ g a = b := by
  show (x >>= fun a => pure (g a)) bytes = .ok (b, rest) ↔ _
  rw [bind_eq_ok]
  constructor
  · rintro ⟨a, rest', hx, h⟩
    cases h
    exact ⟨a, hx, rfl⟩
  · rintro ⟨a, hx, rfl⟩
    exact ⟨a, rest, hx, rfl⟩

theorem pure_eq_ok (a b : α) (bytes rest : Bytes) :
    (pure a : Reader α) bytes = .ok (b, rest) ↔ a = b ∧ bytes = rest := by
  show Except.ok (a, bytes) = Except.ok (b, rest) ↔ _
  rw [Except.ok.injEq, Prod.mk.injEq]

/-- The reader succeeds exactly on what the writer writes for a value that fits, followed by
anything. -/
def Exact (read : Reader α) (write : α → Bytes) (fits : α → Prop) : Prop :=
  ∀ bytes a rest, read bytes = .ok (a, rest) ↔ fits a ∧ bytes = write a ++ rest

end Steps

/-! ## Primitive fields -/

/-- The first `count` bytes, if there are so many, are read and nothing else. -/
theorem take_drop_iff {count : Nat} {bytes a rest : Bytes} :
    (¬ bytes.length < count ∧ bytes.take count = a ∧ bytes.drop count = rest) ↔
      a.length = count ∧ bytes = a ++ rest := by
  constructor
  · rintro ⟨hlen, rfl, rfl⟩
    refine ⟨?_, (List.take_append_drop count bytes).symm⟩
    rw [List.length_take]
    omega
  · rintro ⟨rfl, rfl⟩
    refine ⟨?_, List.take_left, List.drop_left⟩
    rw [List.length_append]
    omega

theorem exact_readNumber (count : Nat) :
    Exact (readNumber count) (Bytes.ofNatLE count) (fun n => n < 256 ^ count) := by
  intro bytes n rest
  rw [readNumber]
  constructor
  · intro h
    split at h
    · cases h
    · rename_i hlen
      cases h
      have hcut := take_drop_iff.mp ⟨hlen, rfl, rfl⟩
      have hlt := Bytes.toNatLE_lt (bytes.take count)
      have hback := Bytes.ofNatLE_toNatLE (bytes.take count)
      rw [hcut.1] at hlt hback
      refine ⟨hlt, ?_⟩
      rw [hback]
      exact hcut.2
  · rintro ⟨hn, rfl⟩
    obtain ⟨hlen, htake, hdrop⟩ :=
      take_drop_iff.mpr ⟨Bytes.length_ofNatLE count n, (rfl : Bytes.ofNatLE count n ++ rest = _)⟩
    rw [if_neg hlen, htake, hdrop, Bytes.toNatLE_ofNatLE hn]

theorem readExactly_eq_ok (count : Nat) (bytes a rest : Bytes) :
    readExactly count bytes = .ok (a, rest) ↔ a.length = count ∧ bytes = a ++ rest := by
  rw [← take_drop_iff, readExactly]
  split
  · rename_i hlen
    constructor
    · intro h
      cases h
    · intro h
      exact absurd hlen h.1
  · rename_i hlen
    rw [Except.ok.injEq, Prod.mk.injEq]
    exact ⟨fun h => ⟨hlen, h⟩, fun h => h.2⟩

theorem exact_readBytes :
    Exact readBytes encodeBytes (fun a => a.length < 256 ^ 8) := by
  intro bytes a rest
  rw [readBytes, bind_eq_ok]
  simp only [exact_readNumber 8 _ _ _, readExactly_eq_ok]
  constructor
  · rintro ⟨n, tail, ⟨hn, rfl⟩, rfl, rfl⟩
    refine ⟨hn, ?_⟩
    rw [encodeBytes, List.append_assoc]
  · rintro ⟨ha, rfl⟩
    refine ⟨a.length, a ++ rest, ⟨ha, ?_⟩, rfl, rfl⟩
    rw [encodeBytes, List.append_assoc]

theorem exact_readWord : Exact readWord encodeWord (fun _ => True) := by
  intro bytes n rest
  rw [readWord, map_eq_ok]
  simp only [exact_readNumber 4 _ _ _]
  constructor
  · rintro ⟨m, ⟨hm, rfl⟩, rfl⟩
    have hback : (UInt32.ofNat m).toNat = m := UInt32.toNat_ofNat_of_lt' hm
    refine ⟨trivial, ?_⟩
    rw [encodeWord, hback]
  · rintro ⟨-, rfl⟩
    exact ⟨n.toNat, ⟨n.toNat_lt, rfl⟩, UInt32.ofNat_toNat⟩

/-! ## Composed fields -/

theorem readTag_eq_ok (bytes : Bytes) (tag : UInt8) (rest : Bytes) :
    readTag bytes = .ok (tag, rest) ↔ bytes = tag :: rest := by
  cases bytes with
  | nil =>
      constructor
      · intro h
        cases h
      · intro h
        cases h
  | cons b bs =>
      show Except.ok (b, bs) = Except.ok (tag, rest) ↔ _
      rw [Except.ok.injEq, Prod.mk.injEq, List.cons.injEq]

/-- Exactness passes to the optional field. -/
theorem exact_readOption {α : Type} {read : Reader α} {write : α → Bytes} {fits : α → Prop}
    (h : Exact read write fits) :
    Exact (readOption read) (encodeOption write) (fun o => ∀ a ∈ o, fits a) := by
  intro bytes o rest
  rw [readOption, bind_eq_ok]
  simp only [readTag_eq_ok]
  constructor
  · rintro ⟨tag, tail, rfl, hr⟩
    split at hr
    · rename_i htag
      obtain ⟨rfl, rfl⟩ := (pure_eq_ok _ _ _ _).mp hr
      refine ⟨fun a ha => (Option.not_mem_none a ha).elim, ?_⟩
      rw [htag]
      rfl
    · split at hr
      · rename_i htag
        obtain ⟨a, ha, rfl⟩ := (map_eq_ok _ _ _ _ _).mp hr
        obtain ⟨hfit, rfl⟩ := (h _ _ _).mp ha
        refine ⟨fun a' ha' => ?_, ?_⟩
        · rw [← Option.mem_some.mp ha']
          exact hfit
        · rw [htag]
          rfl
      · cases hr
  · rintro ⟨hfit, rfl⟩
    cases o with
    | none => exact ⟨0, rest, rfl, rfl⟩
    | some a =>
        refine ⟨1, write a ++ rest, rfl, ?_⟩
        rw [if_neg (by decide), if_pos rfl, map_eq_ok]
        exact ⟨a, (h _ _ _).mpr ⟨hfit a rfl, rfl⟩, rfl⟩

theorem exact_readCost : Exact readCost encodeCost (fun _ => True) := by
  intro bytes cost rest
  rw [readCost, bind_eq_ok]
  simp only [exact_readNumber 4 _ _ _]
  constructor
  · rintro ⟨number, tail, ⟨-, rfl⟩, hr⟩
    split at hr
    · rename_i hnumber
      simp only [bind_eq_ok, exact_readWord _ _ _, pure_eq_ok] at hr
      obtain ⟨memory, _, ⟨-, rfl⟩, iterations, _, ⟨-, rfl⟩, lanes, _, ⟨-, rfl⟩, rfl, rfl⟩ := hr
      refine ⟨trivial, ?_⟩
      rw [hnumber]
      simp only [encodeCost, List.append_assoc]
      rfl
    · split at hr
      · rename_i hnumber
        simp only [map_eq_ok, exact_readWord _ _ _] at hr
        obtain ⟨iterations, ⟨-, rfl⟩, rfl⟩ := hr
        refine ⟨trivial, ?_⟩
        rw [hnumber]
        simp only [encodeCost, List.append_assoc]
        rfl
      · cases hr
  · rintro ⟨-, rfl⟩
    cases cost with
    | argon2id memory iterations lanes =>
        refine ⟨0, encodeWord memory ++ (encodeWord iterations ++ (encodeWord lanes ++ rest)),
          ⟨by decide, ?_⟩, ?_⟩
        · simp only [encodeCost, List.append_assoc]
          rfl
        · rw [if_pos rfl]
          simp only [bind_eq_ok, exact_readWord _ _ _, pure_eq_ok]
          exact ⟨memory, _, ⟨trivial, rfl⟩, iterations, _, ⟨trivial, rfl⟩, lanes, _,
            ⟨trivial, rfl⟩, rfl, rfl⟩
    | pbkdf2Sha256 iterations =>
        refine ⟨1, encodeWord iterations ++ rest, ⟨by decide, ?_⟩, ?_⟩
        · simp only [encodeCost, List.append_assoc]
          rfl
        · rw [if_neg (by decide), if_pos rfl]
          simp only [map_eq_ok, exact_readWord _ _ _]
          exact ⟨iterations, ⟨trivial, rfl⟩, rfl⟩

/-! ## The whole body -/

/-- Every byte string of a body is short enough for its length to fit eight bytes. -/
structure Fits (b : Body) : Prop where
  ephemeralKey : ∀ a ∈ b.ephemeralKey, a.length < 256 ^ 8
  encapsulatedKey : b.encapsulatedKey.length < 256 ^ 8
  nonce : b.nonce.length < 256 ^ 8
  ciphertext : b.ciphertext.length < 256 ^ 8
  tag : b.tag.length < 256 ^ 8
  passphraseSalt : ∀ a ∈ b.passphraseSalt, a.length < 256 ^ 8
  kdfSalt : ∀ a ∈ b.kdfSalt, a.length < 256 ^ 8

theorem exact_readFields : Exact readFields encode Fits := by
  intro bytes b rest
  simp only [readFields, bind_eq_ok, pure_eq_ok, exact_readBytes _ _ _,
    exact_readOption exact_readBytes _ _ _, exact_readOption exact_readCost _ _ _]
  constructor
  · rintro ⟨ek, _, ⟨h1, rfl⟩, k, _, ⟨h2, rfl⟩, n, _, ⟨h3, rfl⟩, c, _, ⟨h4, rfl⟩, t, _,
      ⟨h5, rfl⟩, ps, _, ⟨h6, rfl⟩, cost, _, ⟨-, rfl⟩, ks, _, ⟨h8, rfl⟩, rfl, rfl⟩
    refine ⟨⟨h1, h2, h3, h4, h5, h6, h8⟩, ?_⟩
    simp only [encode, List.append_assoc]
  · rintro ⟨hfit, rfl⟩
    simp only [encode, List.append_assoc]
    exact ⟨_, _, ⟨hfit.ephemeralKey, rfl⟩, _, _, ⟨hfit.encapsulatedKey, rfl⟩,
      _, _, ⟨hfit.nonce, rfl⟩, _, _, ⟨hfit.ciphertext, rfl⟩, _, _, ⟨hfit.tag, rfl⟩,
      _, _, ⟨hfit.passphraseSalt, rfl⟩, _, _, ⟨fun _ _ => trivial, rfl⟩,
      _, _, ⟨hfit.kdfSalt, rfl⟩, rfl, rfl⟩

/-- A byte string reads as a body exactly when it is what the body is written as. -/
theorem decode_eq_ok_iff (bytes : Bytes) (b : Body) :
    decode bytes = .ok b ↔ Fits b ∧ bytes = b.encode := by
  have hread : decode bytes = .ok b ↔ readFields bytes = .ok (b, []) := by
    rw [decode]
    split
    · rename_i body hr
      rw [hr, Except.ok.injEq, Except.ok.injEq, Prod.mk.injEq]
      exact ⟨fun h => ⟨h, rfl⟩, fun h => h.1⟩
    · rename_i x y ys hr
      rw [hr]
      constructor
      · intro h
        cases h
      · intro h
        cases h
    · rename_i problem hr
      rw [hr]
      constructor
      · intro h
        cases h
      · intro h
        cases h
  rw [hread, exact_readFields, List.append_nil]

/-! ## Lengths -/

theorem length_encodeBytes (a : Bytes) : (encodeBytes a).length = 8 + a.length := by
  rw [encodeBytes, List.length_append, Bytes.length_ofNatLE]

theorem length_encodeOption_le (o : Option Bytes) :
    (encodeOption encodeBytes o).length ≤ 9 + (o.getD []).length := by
  cases o with
  | none => exact Nat.le_add_left 1 8
  | some a =>
      show (1 :: encodeBytes a).length ≤ 9 + a.length
      rw [List.length_cons, length_encodeBytes]
      omega

theorem length_encodeCost_le (cost : Option StretchCost) :
    (encodeOption encodeCost cost).length ≤ 17 := by
  cases cost with
  | none => exact (by decide : 1 ≤ 17)
  | some cost =>
      cases cost with
      | argon2id memory iterations parallelism => exact Nat.le_refl 17
      | pbkdf2Sha256 iterations => exact (by decide : 9 ≤ 17)

/-- A body takes 76 bytes at most besides its fields. -/
theorem length_encode_le (b : Body) : b.encode.length ≤
    (b.ephemeralKey.getD []).length + b.encapsulatedKey.length + b.nonce.length
      + b.ciphertext.length + b.tag.length + (b.passphraseSalt.getD []).length
      + (b.kdfSalt.getD []).length + 76 := by
  have hkey := length_encodeOption_le b.ephemeralKey
  have hsalt := length_encodeOption_le b.passphraseSalt
  have hcost := length_encodeCost_le b.stretchCost
  have hfresh := length_encodeOption_le b.kdfSalt
  simp only [encode, List.length_append, length_encodeBytes]
  omega

theorem length_le_encodeOption {o : Option Bytes} {a : Bytes} (h : a ∈ o) :
    a.length ≤ (encodeOption encodeBytes o).length := by
  cases Option.mem_def.mp h
  show a.length ≤ (1 :: encodeBytes a).length
  rw [List.length_cons, length_encodeBytes]
  omega

/-- A body that is short enough to be written has only fields that fit. -/
theorem fits_of_length_le {b : Body} (h : b.encode.length ≤ maxLength) : Fits b := by
  have hmax : maxLength < 256 ^ 8 := by decide
  simp only [encode, List.length_append, length_encodeBytes] at h
  have hopt : ∀ {o : Option Bytes} {a : Bytes}, a ∈ o →
      (encodeOption encodeBytes o).length ≤ maxLength → a.length < 256 ^ 8 := by
    intro o a ha ho
    have := length_le_encodeOption ha
    omega
  refine ⟨fun a ha => hopt ha ?_, ?_, ?_, ?_, ?_, fun a ha => hopt ha ?_, fun a ha => hopt ha ?_⟩
  all_goals omega

end AgileSeal.Body
