import AgileSeal.Proofs.Text.Blank
import AgileSeal.Text.Natural

set_option autoImplicit false

/-! # Which texts are numbers

A number is read from decimal digits, with one plus sign in front of them or none (`Numeral`), and
is refused if it does not stay below its bound (`naturalBelow?_eq_some_iff`). Reading gives up as
soon as the digits so far have reached the bound, which misses nothing, since further digits never
make a number smaller. With blanks trimmed before it is read, a text is a number if a numeral stands
between its blanks (`naturalBelow?_trimChars_eq_some_iff`).
-/

namespace AgileSeal.Text

/-! ## Digits -/

/-- Digits never make a number smaller. -/
theorem le_ofDigitChars (ds : List Char) (n : Nat) : n ≤ Nat.ofDigitChars 10 ds n := by
  induction ds generalizing n with
  | nil => exact Nat.le_refl n
  | cons d ds ih =>
      have hrest := ih (10 * n + (d.toNat - '0'.toNat))
      rw [Nat.ofDigitChars_cons]
      omega

theorem digit?_eq_some_iff {c : Char} {d : Nat} :
    digit? c = some d ↔ c.isDigit = true ∧ c.toNat - '0'.toNat = d := by
  unfold digit?
  by_cases hc : c.isDigit = true
  · rw [if_pos hc, Option.some_inj, and_iff_right hc]
    rfl
  · rw [if_neg hc]
    constructor
    · intro h
      cases h
    · rintro ⟨h, -⟩
      exact absurd h hc

/-- Further digits are read if all of them are digits and the number stays below its bound. -/
theorem appendDigits_eq_some_iff {bound acc n : Nat} {cs : List Char} :
    appendDigits bound acc cs = some n ↔
      (∀ c ∈ cs, c.isDigit = true) ∧ Nat.ofDigitChars 10 cs acc = n ∧ n < bound := by
  induction cs generalizing acc with
  | nil =>
      rw [appendDigits, Option.ite_none_right_eq_some, Option.some_inj,
        and_iff_right (List.forall_mem_nil _)]
      constructor
      · rintro ⟨hlt, rfl⟩
        exact ⟨rfl, hlt⟩
      · rintro ⟨rfl, hlt⟩
        exact ⟨hlt, rfl⟩
  | cons c cs ih =>
      rw [appendDigits, Option.ite_none_right_eq_some, Option.bind_eq_some_iff,
        List.forall_mem_cons, Nat.ofDigitChars_cons, Nat.mul_comm 10 acc]
      constructor
      · rintro ⟨-, d, hd, hrest⟩
        obtain ⟨hc, rfl⟩ := digit?_eq_some_iff.mp hd
        obtain ⟨hcs, hn, hlt⟩ := ih.mp hrest
        exact ⟨⟨hc, hcs⟩, hn, hlt⟩
      · rintro ⟨⟨hc, hcs⟩, hn, hlt⟩
        -- the whole number is below the bound, and what has been read of it is no greater
        have hle := le_ofDigitChars cs (acc * 10 + (c.toNat - '0'.toNat))
        exact ⟨by omega, _, digit?_eq_some_iff.mpr ⟨hc, rfl⟩, ih.mpr ⟨hcs, hn, hlt⟩⟩

/-! ## Numerals -/

/-- A numeral and its number: one digit at least, with an optional plus sign in front. -/
def Numeral (cs : List Char) (n : Nat) : Prop :=
  ∃ digits, (cs = digits ∨ cs = '+' :: digits) ∧ digits ≠ [] ∧
    (∀ d ∈ digits, d.isDigit = true) ∧ Nat.ofDigitChars 10 digits 0 = n

theorem dropPlus_digits {digits : List Char} (h : ∀ d ∈ digits, d.isDigit = true) :
    dropPlus digits = digits := by
  unfold dropPlus
  split
  · have hplus : '+'.isDigit = true := h '+' List.mem_cons_self
    cases hplus
  · rfl

theorem naturalBelow?_of_dropPlus {bound : Nat} {cs digits : List Char}
    (hdrop : dropPlus cs = digits) (hne : digits ≠ []) :
    naturalBelow? bound cs = appendDigits bound 0 digits := by
  unfold naturalBelow?
  rw [hdrop]
  split
  · contradiction
  · rfl

/-- **Numbers are read from numerals** and from nothing else. -/
theorem naturalBelow?_eq_some_iff {bound n : Nat} {cs : List Char} :
    naturalBelow? bound cs = some n ↔ Numeral cs n ∧ n < bound := by
  constructor
  · intro h
    have hne : dropPlus cs ≠ [] := by
      intro hnil
      unfold naturalBelow? at h
      rw [hnil] at h
      cases h
    rw [naturalBelow?_of_dropPlus rfl hne] at h
    obtain ⟨hdigits, hn, hlt⟩ := appendDigits_eq_some_iff.mp h
    refine ⟨⟨dropPlus cs, ?_, hne, hdigits, hn⟩, hlt⟩
    unfold dropPlus
    split
    · exact .inr rfl
    · exact .inl rfl
  · rintro ⟨⟨digits, hcs, hne, hdigits, hn⟩, hlt⟩
    have hdrop : dropPlus cs = digits := by
      rcases hcs with rfl | rfl
      · exact dropPlus_digits hdigits
      · rfl
    rw [naturalBelow?_of_dropPlus hdrop hne]
    exact appendDigits_eq_some_iff.mpr ⟨hdigits, hn, hlt⟩

theorem isBlank_of_isDigit {c : Char} (h : c.isDigit = true) : isBlank c = false := by
  have hrange : 48 ≤ c.toNat ∧ c.toNat ≤ 57 := by
    rw [Char.isDigit, Bool.and_eq_true, decide_eq_true_eq, decide_eq_true_eq] at h
    exact h
  simp only [isBlank, Bool.or_eq_false_iff, Bool.and_eq_false_iff, decide_eq_false_iff_not,
    beq_eq_false_iff_ne, ne_eq]
  omega

/-- There are no blanks in a numeral. -/
theorem Numeral.trimmed {cs : List Char} {n : Nat} (h : Numeral cs n) : Trimmed cs := by
  obtain ⟨digits, hcs, -, hdigits, -⟩ := h
  have hblank : ∀ d ∈ digits, isBlank d = false := fun d hd => isBlank_of_isDigit (hdigits d hd)
  rcases hcs with rfl | rfl
  · exact trimmed_of_no_blank hblank
  · exact trimmed_of_no_blank (List.forall_mem_cons.mpr ⟨rfl, hblank⟩)

/-- **With its blanks trimmed** a text is read as a number if a numeral of this number stands
between the blanks. -/
theorem naturalBelow?_trimChars_eq_some_iff {bound n : Nat} {cs : List Char} :
    naturalBelow? bound (trimChars cs) = some n ↔
      (∃ before numeral after, Blanks before ∧ Blanks after ∧
        cs = before ++ (numeral ++ after) ∧ Numeral numeral n) ∧ n < bound := by
  rw [naturalBelow?_eq_some_iff]
  refine and_congr_left fun _ => ?_
  constructor
  · intro h
    obtain ⟨-, before, after, hbefore, hafter, hcs⟩ :=
      trimChars_eq_iff.mp (rfl : trimChars cs = trimChars cs)
    exact ⟨before, trimChars cs, after, hbefore, hafter, hcs, h⟩
  · rintro ⟨before, numeral, after, hbefore, hafter, hcs, h⟩
    rwa [trimChars_eq_iff.mpr ⟨h.trimmed, before, after, hbefore, hafter, hcs⟩]

end AgileSeal.Text
