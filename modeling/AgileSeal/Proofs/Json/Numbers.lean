import AgileSeal.Proofs.Json.RoundTrip
import AgileSeal.Proofs.Text.Natural

set_option autoImplicit false

/-! # Printed numbers are read back

A whole number is printed in decimal digits, without leading zeros. Its digits are read one after
the other for as long as the number fits 64 bits (`takeDigits_append`), and what may stand behind a
value neither is a digit nor makes a fraction or an exponent of it (`scanNumber_toDigits`).
-/

namespace AgileSeal.Json

/-! ## Digits -/

/-- Digits are taken up to the first other character, if the number that they make fits. -/
theorem takeDigits_append {ds rest : List Char} (hds : ∀ d ∈ ds, d.isDigit = true)
    (hrest : startsWithDigit rest = false) (n count : Nat)
    (hfits : Nat.ofDigitChars 10 ds n < 0x10000000000000000) :
    takeDigits n count (ds ++ rest) = (Nat.ofDigitChars 10 ds n, count + ds.length, rest) := by
  induction ds generalizing n count with
  | nil =>
      cases rest with
      | nil => rfl
      | cons c rest =>
          have hc : c.isDigit = false := hrest
          rw [List.nil_append, takeDigits, hc]
          rfl
  | cons d ds ih =>
      obtain ⟨hd, hds⟩ := List.forall_mem_cons.mp hds
      have hnext : n * 10 + (d.toNat - 48) = 10 * n + (d.toNat - '0'.toNat) := by
        rw [Nat.mul_comm]
        rfl
      rw [Nat.ofDigitChars_cons] at hfits ⊢
      have hle := Text.le_ofDigitChars ds (10 * n + (d.toNat - '0'.toNat))
      have hsmall : 10 * n + (d.toNat - '0'.toNat) < 0x10000000000000000 := by omega
      rw [List.cons_append, takeDigits, hnext, hd, decide_eq_true hsmall]
      refine (ih hds _ _ hfits).trans ?_
      rw [List.length_cons, Nat.add_right_comm, Nat.add_assoc]

/-- Only zero is printed with a zero in front. -/
theorem head_toDigits {n : Nat} (h : 0 < n) :
    ∃ d ds, Nat.toDigits 10 n = d :: ds ∧ d ≠ '0' := by
  induction n using Nat.strongRecOn with
  | ind n ih =>
      rw [Nat.toDigits_eq_if (by decide)]
      split
      · rename_i hsmall
        refine ⟨_, [], rfl, ?_⟩
        have hdigits : ∀ m < 10, 0 < m → m.digitChar ≠ '0' := by decide
        exact hdigits n hsmall h
      · rename_i hlarge
        obtain ⟨d, ds, hfirst, hd⟩ := ih (n / 10) (by omega) (by omega)
        exact ⟨d, ds ++ [(n % 10).digitChar], by rw [hfirst]; rfl, hd⟩

/-! ## Numbers -/

namespace Reader

theorem Delimited.head_cases {c : Char} {cs : List Char} (h : Delimited (c :: cs)) :
    c = ',' ∨ c = '\n' ∨ c = ']' ∨ c = '\x7d' := by
  simpa using h c rfl

theorem Delimited.startsWithDigit {rest : List Char} (h : Delimited rest) :
    startsWithDigit rest = false := by
  cases rest with
  | nil => rfl
  | cons c cs => rcases h.head_cases with rfl | rfl | rfl | rfl <;> rfl

/-- A whole number that is not cut off ends where its digits do. -/
theorem Delimited.scanAfterWhole {rest : List Char} (h : Delimited rest) (n : Nat) :
    scanAfterWhole false n 0 rest = .ok (.whole n, rest) := by
  cases rest with
  | nil => rfl
  | cons c cs => rcases h.head_cases with rfl | rfl | rfl | rfl <;> rfl

theorem Delimited.takeWhile_isDigit {rest : List Char} (h : Delimited rest) :
    rest.takeWhile Char.isDigit = [] := by
  cases rest with
  | nil => rfl
  | cons c cs =>
      have hc : c.isDigit = false := h.startsWithDigit
      exact List.takeWhile_cons_of_neg (hc ▸ Bool.false_ne_true)

end Reader

open Reader

/-- **A printed number is read** up to its last digit, if 64 bits hold it. -/
theorem scanNumber_toDigits {n : Nat} (hn : n < 0x10000000000000000) {rest : List Char}
    (hrest : Delimited rest) :
    scanNumber false (Nat.toDigits 10 n ++ rest) = .ok (.whole n, rest) := by
  rcases Nat.eq_zero_or_pos n with rfl | hpos
  · show (if startsWithDigit rest then _ else scanAfterWhole false 0 0 rest) = _
    rw [hrest.startsWithDigit]
    exact hrest.scanAfterWhole 0
  · have hdigits : ∀ d ∈ Nat.toDigits 10 n, d.isDigit = true := fun d hd =>
      Nat.isDigit_of_mem_toDigits (by decide) (by decide) hd
    have htake := takeDigits_append hdigits hrest.startsWithDigit 0 0
      (by rwa [Nat.ofDigitChars_ten_toDigits])
    rw [Nat.ofDigitChars_ten_toDigits] at htake
    obtain ⟨d, ds, hfirst, hd⟩ := head_toDigits hpos
    have hstart : startsWithDigit (d :: (ds ++ rest)) = true :=
      hdigits d (hfirst ▸ List.mem_cons_self)
    rw [hfirst, List.cons_append] at htake ⊢
    rw [scanNumber, if_pos hstart, htake]
    · show scanAfterWhole false n (rest.takeWhile Char.isDigit).length
        (rest.drop (rest.takeWhile Char.isDigit).length) = _
      rw [hrest.takeWhile_isDigit]
      exact hrest.scanAfterWhole n
    · exact fun h => List.cons_ne_nil _ _ h
    · exact fun _ h => hd (List.cons.inj h).1

/-- The text of a number starts with a digit. -/
theorem toDigits_eq_cons (n : Nat) :
    ∃ d ds, Nat.toDigits 10 n = d :: ds ∧ d.isDigit = true := by
  obtain ⟨d, ds, h⟩ := List.exists_cons_of_length_pos (Nat.length_toDigits_pos (b := 10) (n := n))
  exact ⟨d, ds, h, Nat.isDigit_of_mem_toDigits (by decide) (by decide)
    (h ▸ List.mem_cons_self : d ∈ Nat.toDigits 10 n)⟩

theorem isSpace_of_isDigit {c : Char} (h : c.isDigit = true) : isSpace c = false := by
  rw [Bool.eq_false_iff]
  intro hspace
  have hcases : c = ' ' ∨ c = '\n' ∨ c = '\t' ∨ c = '\r' := by
    simpa [isSpace, or_assoc] using hspace
  rcases hcases with rfl | rfl | rfl | rfl <;> cases h

/-- **A printed number is read back** by a reader of numbers below a bound. -/
theorem Reader.reads_natural {n bound : Nat} (hn : n < bound) (hbound : n < 0x10000000000000000)
    (expected : String) : Reads (natural bound expected) (Nat.toDigits 10 n) n := by
  intro space rest hspace hrest
  have hscan := scanNumber_toDigits hbound hrest
  obtain ⟨d, ds, hfirst, hd⟩ := toDigits_eq_cons n
  have hminus : d ≠ '-' := by
    rintro rfl
    exact Bool.false_ne_true hd
  have hrange : 0 ≤ (n : Int) ∧ (n : Int) < (bound : Int) := by omega
  rw [hfirst, List.cons_append] at hscan ⊢
  rw [natural, skipSpace_append hspace, skipSpace_cons (isSpace_of_isDigit hd)]
  simp only [hd, hminus, or_true, if_true, if_false, hscan, if_pos hrange, Int.toNat_natCast]

end AgileSeal.Json
