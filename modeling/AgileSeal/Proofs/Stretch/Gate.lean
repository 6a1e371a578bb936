import AgileSeal.Proofs.Stretch.Limits

set_option autoImplicit false

/-! # What is stretched

A passphrase is stretched when it is not empty, the salt has at least 16 bytes and the cost is
within the limits; what is left to fail is the bare function (`stretchPassphrase_eq_ok_iff`). Valid
parameters set a cost within the limits, and at such a cost the bare function fails only for inputs
of 4 GiB or more, so with valid parameters a passphrase is stretched (`exists_stretchPassphrase`).

A cost may also come from a bundle, where any words may stand. The three checks are the whole gate
for such a cost too (`stretchPassphrase_exact`): what passes them is stretched, and what does not is
refused as unfit key material.
-/

namespace AgileSeal

/-- **What stretching asks of its inputs.** -/
theorem stretchPassphrase_eq_ok_iff {text : String} {salt : Bytes} {cost : StretchCost}
    {key : Bytes} : stretchPassphrase text salt cost = .ok key ↔
      text ≠ "" ∧ 16 ≤ salt.length ∧ cost.withinLimits = true ∧
        cost.stretch (Text.utf8 text) salt = .ok key := by
  have hmin : Params.minSaltLength.toNat = 16 := rfl
  rw [stretchPassphrase]
  by_cases htext : text = ""
  · rw [if_pos htext]
    constructor
    · intro h
      cases h
    · rintro ⟨hne, -⟩
      exact absurd htext hne
  · rw [if_neg htext, and_iff_right htext]
    by_cases hsalt : salt.length < Params.minSaltLength.toNat
    · rw [if_pos hsalt]
      constructor
      · intro h
        cases h
      · rintro ⟨hlength, -⟩
        omega
    · rw [if_neg hsalt, and_iff_right (by omega)]
      cases hcost : cost.withinLimits with
      | false =>
          constructor
          · intro h
            cases h
          · rintro ⟨h, -⟩
            cases h
      | true =>
          rw [if_neg (by decide), and_iff_right rfl]
          exact mapError_eq_ok_iff

/-! ## Costs within the limits -/

namespace StretchCost

/-- Valid parameters set a cost within the limits. -/
theorem withinLimits_ofParams {p : Params} (h : p.validate = .ok ()) (kdf : PassphraseKdf) :
    (ofParams kdf p).withinLimits = true :=
  (Params.validate_eq_ok_iff_withinLimits.mp h).2 kdf

/-- At a cost within the limits everything of less than 4 GiB is stretched. -/
theorem exists_stretch {cost : StretchCost} (hlimits : cost.withinLimits = true)
    {password salt : Bytes} (hpassword : password.length < 2 ^ 32) (hshort : 8 ≤ salt.length)
    (hlong : salt.length < 2 ^ 32) : ∃ key, cost.stretch password salt = .ok key := by
  cases cost with
  | pbkdf2Sha256 iterations => exact ⟨_, rfl⟩
  | argon2id memory iterations parallelism =>
      obtain ⟨⟨hpasses, -⟩, ⟨hlanes, hmostLanes⟩, hleast, -⟩ := withinLimits_argon2id_iff.mp hlimits
      have hnone : argon2Problem? memory.toNat iterations.toNat parallelism.toNat password.length
          salt.length = none := by
        rw [argon2Problem?, if_neg (by omega), if_neg (by omega), if_neg (by omega),
          if_neg (by omega), if_neg (by omega), if_neg (by omega), if_neg (by omega)]
      rw [stretch, hnone]
      exact ⟨_, rfl⟩

end StretchCost

/-- **With valid parameters a passphrase is stretched**, if it is not empty and neither it nor the
salt has 4 GiB. -/
theorem exists_stretchPassphrase {p : Params} (h : p.validate = .ok ()) (kdf : PassphraseKdf)
    {text : String} (htext : text ≠ "") (hlong : (Text.utf8 text).length < 2 ^ 32) {salt : Bytes}
    (hsalt : salt.length = p.saltLength.toNat) (hsaltLong : p.saltLength.toNat < 2 ^ 32) :
    ∃ stretched, stretchPassphrase text salt (.ofParams kdf p) = .ok stretched := by
  have hleast := Params.le_saltLength h
  have hlimits := StretchCost.withinLimits_ofParams h kdf
  obtain ⟨stretched, hstretched⟩ :=
    StretchCost.exists_stretch hlimits hlong (by omega : 8 ≤ salt.length) (by omega)
  exact ⟨stretched, stretchPassphrase_eq_ok_iff.mpr ⟨htext, by omega, hlimits, hstretched⟩⟩

/-! ## Costs from outside -/

/-- Whatever is not stretched is unfit as key material. -/
theorem stretchPassphrase_fails_only (text : String) (salt : Bytes) (cost : StretchCost) :
    FailsOnly (stretchPassphrase text salt cost) fun e => ∃ detail, e = .keyManagement detail := by
  unfold stretchPassphrase
  split
  · exact .error ⟨_, rfl⟩
  split
  · exact .error ⟨_, rfl⟩
  split
  · exact .error ⟨_, rfl⟩
  · exact .mapError (fun e => ⟨e.message, rfl⟩) _

/-- **The gate is exact.** Whatever words a cost is made of, a passphrase and a salt of less than
4 GiB are stretched if and only if the passphrase is not empty, the salt has at least 16 bytes and
the cost is within the limits, and all others are refused as unfit key material. Behind the three
checks the bare function finds nothing to complain about, be it the cost, the salt or the
passphrase. -/
theorem stretchPassphrase_exact {text : String} {salt : Bytes}
    (htext : (Text.utf8 text).length < 2 ^ 32) (hsalt : salt.length < 2 ^ 32)
    (cost : StretchCost) :
    ((∃ key, stretchPassphrase text salt cost = .ok key) ↔
      text ≠ "" ∧ 16 ≤ salt.length ∧ cost.withinLimits = true) ∧
    (¬(text ≠ "" ∧ 16 ≤ salt.length ∧ cost.withinLimits = true) →
      ∃ detail, stretchPassphrase text salt cost = .error (.keyManagement detail)) ∧
    (text ≠ "" ∧ 16 ≤ salt.length ∧ cost.withinLimits = true →
      ∀ e, cost.stretch (Text.utf8 text) salt ≠ .error e) := by
  have hbare (hgate : text ≠ "" ∧ 16 ≤ salt.length ∧ cost.withinLimits = true) :
      ∃ key, cost.stretch (Text.utf8 text) salt = .ok key :=
    StretchCost.exists_stretch hgate.2.2 htext (by omega) hsalt
  have hopens : (∃ key, stretchPassphrase text salt cost = .ok key) ↔
      text ≠ "" ∧ 16 ≤ salt.length ∧ cost.withinLimits = true := by
    constructor
    · rintro ⟨key, hkey⟩
      obtain ⟨hne, hlong, hlimits, -⟩ := stretchPassphrase_eq_ok_iff.mp hkey
      exact ⟨hne, hlong, hlimits⟩
    · intro hgate
      obtain ⟨key, hkey⟩ := hbare hgate
      exact ⟨key, stretchPassphrase_eq_ok_iff.mpr ⟨hgate.1, hgate.2.1, hgate.2.2, hkey⟩⟩
  refine ⟨hopens, fun hclosed => ?_, fun hgate e herror => ?_⟩
  · rcases (stretchPassphrase_fails_only text salt cost).ok_or_error with hok | ⟨_, ⟨detail, rfl⟩,
      herror⟩
    · exact absurd (hopens.mp hok) hclosed
    · exact ⟨detail, herror⟩
  · obtain ⟨key, hkey⟩ := hbare hgate
    cases hkey.symm.trans herror

/-- With the most lanes, the least memory for them is enough and a kilobyte less is not. -/
theorem stretchPassphrase_exact_lanes :
    ((Text.utf8 "π").length < 2 ^ 32 ∧ (Bytes.zeros 16).length < 2 ^ 32) ∧
    (∃ key, stretchPassphrase "π" (Bytes.zeros 16) (.argon2id 512 32 64) = .ok key) ∧
    ∃ detail, stretchPassphrase "π" (Bytes.zeros 16) (.argon2id 511 32 64)
      = .error (.keyManagement detail) := by
  have htext : (Text.utf8 "π").length < 2 ^ 32 := by decide
  have hsalt : (Bytes.zeros 16).length < 2 ^ 32 := by decide
  refine ⟨⟨htext, hsalt⟩, ?_, ?_⟩
  · exact (stretchPassphrase_exact htext hsalt (.argon2id 512 32 64)).1.mpr
      ⟨by decide, by decide, by decide⟩
  · refine (stretchPassphrase_exact htext hsalt (.argon2id 511 32 64)).2.1 ?_
    rintro ⟨-, -, hlimits⟩
    exact absurd hlimits (by decide)

end AgileSeal
