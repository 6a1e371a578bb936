import AgileSeal.Proofs.Operations
import AgileSeal.Stretch.Cost
import Mathlib.Algebra.Group.Nat.Defs

set_option autoImplicit false

/-! # The limits on what stretching costs

What stretching may cost is checked in two places: parameters when they are set, and the cost in a
bundle before it is run. The two checks are written apart, in another order and with other
comparisons, but they agree: parameters are valid exactly if their salts are long enough and the
cost that they set is within the limits for both stretching functions
(`Params.validate_eq_ok_iff_withinLimits`).

A cost is made of words of 32 bits that come from outside, and eight times the lanes may need more.
Machines differ in what they make of such a product (`WordProduct`). It does not matter: the lanes
are compared with their limit before they are multiplied, so the check comes to the same answer on
every machine (`StretchCost.withinLimitsOn_eq`) and the limits on words are limits on the numbers
that they stand for (`StretchCost.withinLimits_argon2id_iff`).
-/

namespace AgileSeal

/-! ## Words -/

/-- Words that are not zero are at least one. -/
theorem one_le_iff_ne_zero {n : UInt32} : 1 ≤ n ↔ n ≠ 0 := by
  rw [UInt32.le_iff_toNat_le, ne_eq, ← UInt32.toNat_inj]
  exact Nat.one_le_iff_ne_zero

/-- How a machine multiplies words. A product that fits into 32 bits is exact; of the others nothing
is asked, and there may be none. -/
structure WordProduct where
  times : UInt32 → UInt32 → Option UInt32
  times_of_fits : ∀ a b : UInt32, a.toNat * b.toNat < 2 ^ 32 → times a b = some (a * b)

namespace WordProduct

/-- The machine that keeps the low bits of every product. -/
def wrapping : WordProduct where
  times a b := some (a * b)
  times_of_fits _ _ _ := rfl

/-- The machine that stops at a product that does not fit. -/
def checked : WordProduct where
  times a b := if a.toNat * b.toNat < 2 ^ 32 then some (a * b) else none
  times_of_fits _ _ hfits := if_pos hfits

end WordProduct

/-- Eight times the lanes fit if there are not too many of them. -/
theorem eight_mul_fits {lanes : UInt32} (h : lanes ≤ Params.maxArgon2Parallelism) :
    (8 : UInt32).toNat * lanes.toNat < 2 ^ 32 := by
  have hmost : lanes.toNat ≤ 64 := h
  show 8 * lanes.toNat < 2 ^ 32
  omega

namespace StretchCost

/-! ## Limits on words and numbers -/

/-- What the limits ask of a cost of Argon2id. -/
theorem withinLimits_argon2id {memory iterations parallelism : UInt32} :
    (argon2id memory iterations parallelism).withinLimits = true ↔
      (1 ≤ iterations ∧ iterations ≤ Params.maxArgon2Iterations) ∧
      (1 ≤ parallelism ∧ parallelism ≤ Params.maxArgon2Parallelism) ∧
      8 * parallelism ≤ memory ∧ memory ≤ Params.maxArgon2Memory := by
  rw [withinLimits, checkLimits]
  split
  · rename_i hfirst
    simp only [Bool.and_eq_true, decide_eq_true_eq, and_assoc] at hfirst
    simp [hfirst]
  · rename_i hfirst
    simp only [Bool.and_eq_true, decide_eq_true_eq, and_assoc] at hfirst
    simp only [Id.run_pure, Bool.false_eq_true, false_iff]
    exact fun hall => hfirst ⟨hall.1.1, hall.1.2, hall.2.1⟩

/-- What the limits ask of a cost of PBKDF2. -/
theorem withinLimits_pbkdf2Sha256 {iterations : UInt32} :
    (pbkdf2Sha256 iterations).withinLimits = true ↔
      1 ≤ iterations ∧ iterations ≤ Params.maxPbkdf2Iterations := by
  simp only [withinLimits, checkLimits, Id.run_pure, Bool.and_eq_true, decide_eq_true_eq]

/-- **Limits on words are limits on numbers**: no product wraps around among the costs that are
within them. -/
theorem withinLimits_argon2id_iff {memory iterations parallelism : UInt32} :
    (argon2id memory iterations parallelism).withinLimits = true ↔
      (1 ≤ iterations.toNat ∧ iterations.toNat ≤ 32) ∧
      (1 ≤ parallelism.toNat ∧ parallelism.toNat ≤ 64) ∧
      8 * parallelism.toNat ≤ memory.toNat ∧ memory.toNat ≤ 2 ^ 20 := by
  rw [withinLimits_argon2id]
  refine and_congr_right fun _ => ?_
  constructor
  · rintro ⟨⟨hone, hmost⟩, hleast, hmemory⟩
    rw [UInt32.le_iff_toNat_le, UInt32.toNat_mul, Nat.mod_eq_of_lt (eight_mul_fits hmost)] at hleast
    exact ⟨⟨hone, hmost⟩, hleast, hmemory⟩
  · rintro ⟨⟨hone, hmost⟩, hleast, hmemory⟩
    refine ⟨⟨hone, hmost⟩, ?_, hmemory⟩
    rw [UInt32.le_iff_toNat_le, UInt32.toNat_mul, Nat.mod_eq_of_lt (eight_mul_fits hmost)]
    exact hleast

/-! ## The check on a machine -/

/-- The check of a cost on a machine. There is no answer if the machine stops. -/
def withinLimitsOn (machine : WordProduct) (cost : StretchCost) : Option Bool :=
  cost.checkLimits machine.times

/-- **Every machine checks a cost to the end** and comes to the same answer. -/
theorem withinLimitsOn_eq (machine : WordProduct) (cost : StretchCost) :
    cost.withinLimitsOn machine = some cost.withinLimits := by
  cases cost with
  | pbkdf2Sha256 iterations => rfl
  | argon2id memory iterations parallelism =>
      rw [withinLimitsOn, withinLimits, checkLimits, checkLimits]
      split
      · rename_i hfirst
        -- a machine that comes to the product has seen that the lanes are few
        have hmost : parallelism ≤ Params.maxArgon2Parallelism := by
          rw [Bool.and_eq_true] at hfirst
          exact of_decide_eq_true hfirst.2
        rw [machine.times_of_fits 8 parallelism (eight_mul_fits hmost)]
        rfl
      · rfl

-- a machine stops at eight times this many lanes, but it never gets there
example : WordProduct.checked.times 8 0x20000000 = none ∧
    (argon2id 0xffffffff 1 0x20000000).withinLimitsOn .checked = some false := by decide

end StretchCost

/-! ## Valid parameters -/

namespace Params

/-- What valid parameters are. -/
theorem validate_eq_ok_iff_limits {p : Params} : p.validate = .ok () ↔
    minSaltLength ≤ p.saltLength ∧ (p.argon2Iterations ≠ 0 ∧ p.argon2Parallelism ≠ 0) ∧
      8 * p.argon2Parallelism ≤ p.argon2Memory ∧ p.pbkdf2Iterations ≠ 0 ∧
      p.argon2Memory ≤ maxArgon2Memory ∧ p.argon2Iterations ≤ maxArgon2Iterations ∧
      p.argon2Parallelism ≤ maxArgon2Parallelism ∧ p.pbkdf2Iterations ≤ maxPbkdf2Iterations := by
  rw [validate_eq_ok_iff, problem?]
  simp only [ite_some_eq_none_iff, not_or, UInt64.not_lt, UInt32.not_lt, and_true, ne_eq]

/-- **The two checks agree**: parameters are valid if their salts are long enough and the cost that
they set for either function is within the limits. -/
theorem validate_eq_ok_iff_withinLimits {p : Params} : p.validate = .ok () ↔
    minSaltLength ≤ p.saltLength ∧
      ∀ kdf, (StretchCost.ofParams kdf p).withinLimits = true := by
  rw [validate_eq_ok_iff_limits]
  refine and_congr_right fun _ => ?_
  constructor
  · rintro ⟨⟨hpasses, hlanes⟩, hleast, hiterations, hmemory, hmostPasses, hmostLanes,
      hmostIterations⟩ kdf
    cases kdf with
    | argon2id =>
        exact StretchCost.withinLimits_argon2id.mpr
          ⟨⟨one_le_iff_ne_zero.mpr hpasses, hmostPasses⟩,
            ⟨one_le_iff_ne_zero.mpr hlanes, hmostLanes⟩, hleast, hmemory⟩
    | pbkdf2Sha256 =>
        exact StretchCost.withinLimits_pbkdf2Sha256.mpr
          ⟨one_le_iff_ne_zero.mpr hiterations, hmostIterations⟩
  · intro hlimits
    obtain ⟨⟨hpasses, hmostPasses⟩, ⟨hlanes, hmostLanes⟩, hleast, hmemory⟩ :=
      StretchCost.withinLimits_argon2id.mp (hlimits .argon2id)
    obtain ⟨hiterations, hmostIterations⟩ :=
      StretchCost.withinLimits_pbkdf2Sha256.mp (hlimits .pbkdf2Sha256)
    exact ⟨⟨one_le_iff_ne_zero.mp hpasses, one_le_iff_ne_zero.mp hlanes⟩, hleast,
      one_le_iff_ne_zero.mp hiterations, hmemory, hmostPasses, hmostLanes, hmostIterations⟩

/-- Salts of valid parameters are not short. -/
theorem le_saltLength {p : Params} (h : p.validate = .ok ()) : 16 ≤ p.saltLength.toNat :=
  UInt64.le_iff_toNat_le.mp (validate_eq_ok_iff_limits.mp h).1

/-- **Configured limits and the limits of bundles agree**, and the check of a cost never multiplies
words whose product does not fit: all parameters with salts of 16 bytes or more whose costs are
within the limits are valid and no others are, and the check of a cost gives on every machine, also
on one that stops at a product that is too large, the answer that it gives here. -/
theorem limits_agree (machine : WordProduct) (p : Params) (cost : StretchCost) :
    (p.validate = .ok () ↔
      16 ≤ p.saltLength.toNat ∧ ∀ kdf, (StretchCost.ofParams kdf p).withinLimits = true) ∧
    cost.withinLimitsOn machine = some cost.withinLimits := by
  refine ⟨?_, cost.withinLimitsOn_eq machine⟩
  rw [validate_eq_ok_iff_withinLimits, UInt64.le_iff_toNat_le]
  rfl

end Params

end AgileSeal
