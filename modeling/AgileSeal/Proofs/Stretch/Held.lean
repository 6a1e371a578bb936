import AgileSeal.Proofs.Stretch.Accounts
import AgileSeal.Proofs.Stretch.Cache
import AgileSeal.Proofs.Stretch.Gate

set_option autoImplicit false

/-! # Two passphrases are stretched alike

Whether a passphrase is stretched depends on the salt and the cost. Of the passphrase it matters
that it is not empty and that Argon2 takes it, which it does below 4 GiB (`Argon2.Takes`). So two
passphrases of which this is true are both stretched, or refused for the same reason
(`stretchPassphrase_alike`), and what a cache holds of one (`StretchCache.Holds`) is what it holds
of the other.
-/

namespace AgileSeal

/-! ## Refusals -/

/-- Argon2 takes passwords of less than 4 GiB. -/
def Argon2.Takes (text : String) : Prop := (Text.utf8 text).length ≤ 0xffffffff

/-- Of a password Argon2 looks at the limit of its length. -/
theorem StretchCost.argon2Problem?_congr {n n' : Nat} (h : n ≤ 0xffffffff ↔ n' ≤ 0xffffffff)
    (memory iterations parallelism saltLength : Nat) :
    argon2Problem? memory iterations parallelism n saltLength
      = argon2Problem? memory iterations parallelism n' saltLength := by
  have hlong : 0xffffffff < n ↔ 0xffffffff < n' := by omega
  unfold argon2Problem?
  simp only [hlong]

/-- Two outcomes that differ in the key alone. -/
def Alike {ε α β : Type} (x : Except ε α) (y : Except ε β) : Prop :=
  (∃ a b, x = .ok a ∧ y = .ok b) ∨ ∃ e, x = .error e ∧ y = .error e

theorem StretchCost.stretch_alike {text text' : String} (h : Argon2.Takes text ↔ Argon2.Takes text')
    (cost : StretchCost) (salt : Bytes) :
    Alike (cost.stretch (Text.utf8 text) salt) (cost.stretch (Text.utf8 text') salt) := by
  cases cost with
  | pbkdf2Sha256 iterations => exact .inl ⟨_, _, rfl, rfl⟩
  | argon2id memory iterations parallelism =>
      unfold stretch
      simp only [argon2Problem?_congr h]
      cases argon2Problem? memory.toNat iterations.toNat parallelism.toNat
        (Text.utf8 text').length salt.length with
      | none => exact .inl ⟨_, _, rfl, rfl⟩
      | some problem => exact .inr ⟨_, rfl, rfl⟩

/-- **Two passphrases are stretched alike.** -/
theorem stretchPassphrase_alike {text text' : String} (htext : text ≠ "") (htext' : text' ≠ "")
    (h : Argon2.Takes text ↔ Argon2.Takes text') (salt : Bytes) (cost : StretchCost) :
    Alike (stretchPassphrase text salt cost) (stretchPassphrase text' salt cost) := by
  unfold stretchPassphrase
  rw [if_neg htext, if_neg htext']
  by_cases hsalt : salt.length < Params.minSaltLength.toNat
  · rw [if_pos hsalt, if_pos hsalt]
    exact .inr ⟨_, rfl, rfl⟩
  · rw [if_neg hsalt, if_neg hsalt]
    by_cases hlimits : cost.withinLimits = false
    · rw [if_pos hlimits, if_pos hlimits]
      exact .inr ⟨_, rfl, rfl⟩
    · rw [if_neg hlimits, if_neg hlimits]
      rcases cost.stretch_alike h salt with ⟨key, key', hkey, hkey'⟩ | ⟨problem, hfail, hfail'⟩
      · rw [hkey, hkey']
        exact .inl ⟨key, key', rfl, rfl⟩
      · rw [hfail, hfail']
        exact .inr ⟨_, rfl, rfl⟩

namespace StretchCache

/-- A sound cache that holds one passphrase stretched with some salts and costs. -/
structure Holds (c : StretchCache) (text : String) (sources : List (Bytes × StretchCost)) :
    Prop where
  sound : c.Sound
  held : c.entries.map StretchEntry.source = sources.map fun source => (text, source)
  counted : c.stretches = sources.length

theorem holds_empty (text : String) : empty.Holds text [] := ⟨sound_empty, rfl, rfl⟩

variable {c c' : StretchCache} {text text' : String} {sources : List (Bytes × StretchCost)}

/-- Only what a cache holds is found in it. -/
theorem Holds.find?_eq_none_iff (h : c.Holds text sources) (salt : Bytes) (cost : StretchCost) :
    c.find? text salt cost = none ↔ (salt, cost) ∉ sources := by
  rw [StretchCache.find?_eq_none_iff, h.held, List.mem_map]
  constructor
  · intro hnone hmem
    exact hnone ⟨(salt, cost), hmem, rfl⟩
  · rintro hnot ⟨source, hmem, heq⟩
    exact hnot ((Prod.mk.inj heq).2 ▸ hmem)

/-- What is stretched anew is held afterwards. -/
theorem Holds.append (h : c.Holds text sources) {salt key : Bytes} {cost : StretchCost}
    (hkey : stretchPassphrase text salt cost = .ok key) :
    Holds ⟨c.entries ++ [⟨text, salt, cost, key⟩], c.stretches + 1⟩ text
      (sources ++ [(salt, cost)]) := by
  refine ⟨?_, ?_, ?_⟩
  · intro e he
    rcases List.mem_append.mp he with hold | hnew
    · exact h.sound e hold
    · rw [List.mem_singleton.mp hnew]
      exact hkey
  · rw [List.map_append, List.map_append, h.held]
    rfl
  · rw [List.length_append, h.counted]
    rfl

/-- **Caches that hold the same of two passphrases** do so after both are stretched. -/
theorem Holds.stretch_alike (h : c.Holds text sources) (h' : c'.Holds text' sources)
    {salt : Bytes} {cost : StretchCost}
    (halike : Alike (stretchPassphrase text salt cost) (stretchPassphrase text' salt cost)) :
    Alike (c.stretch text salt cost).1 (c'.stretch text' salt cost).1 ∧ ∃ sources',
      (c.stretch text salt cost).2.Holds text sources' ∧
        (c'.stretch text' salt cost).2.Holds text' sources' := by
  unfold stretch
  cases hfind : c.find? text salt cost with
  | some key =>
      cases hfind' : c'.find? text' salt cost with
      | some key' => exact ⟨.inl ⟨key, key', rfl, rfl⟩, sources, h, h'⟩
      | none =>
          have hnot := (h'.find?_eq_none_iff salt cost).mp hfind'
          have hnone := (h.find?_eq_none_iff salt cost).mpr hnot
          rw [hfind] at hnone
          cases hnone
  | none =>
      have hnot := (h.find?_eq_none_iff salt cost).mp hfind
      have hfind' := (h'.find?_eq_none_iff salt cost).mpr hnot
      rw [hfind']
      rcases halike with ⟨key, key', hkey, hkey'⟩ | ⟨e, hfail, hfail'⟩
      · rw [hkey, hkey']
        exact ⟨.inl ⟨key, key', rfl, rfl⟩, _, h.append hkey, h'.append hkey'⟩
      · rw [hfail, hfail']
        exact ⟨.inr ⟨e, rfl, rfl⟩, sources, h, h'⟩

end StretchCache

end AgileSeal
