set_option autoImplicit false

/-! # Whole numbers in text

A whole number is written with ASCII digits, most significant first. Reading allows one plus
sign in front and any number of leading zeros, and refuses a value that reaches the bound of
the field it is meant for.
-/

namespace AgileSeal.Text

/-- The value of an ASCII digit. -/
def digit? (c : Char) : Option Nat := if c.isDigit then some (c.toNat - 48) else none

/-- The number below `bound` that starts with the digits of `acc` and goes on with the given
ones, or nothing if one of them is no digit. -/
def appendDigits (bound : Nat) : Nat → List Char → Option Nat
  | acc, [] => if acc < bound then some acc else none
  | acc, c :: rest =>
    -- further digits never make a number smaller
    if acc < bound then (digit? c).bind fun d => appendDigits bound (acc * 10 + d) rest
    else none

/-- The characters after an optional plus sign. -/
def dropPlus : List Char → List Char
  | '+' :: rest => rest
  | cs => cs

/-- The number below `bound` a text stands for. It has one digit at least. -/
def naturalBelow? (bound : Nat) (cs : List Char) : Option Nat :=
  match dropPlus cs with
  | [] => none
  | digits => appendDigits bound 0 digits

theorem lt_of_appendDigits {bound acc n : Nat} {cs : List Char}
    (h : appendDigits bound acc cs = some n) : n < bound := by
  induction cs generalizing acc with
  | nil =>
    simp only [appendDigits] at h
    split at h
    · simp_all
    · cases h
  | cons c rest ih =>
    simp only [appendDigits] at h
    split at h
    · obtain ⟨d, -, h⟩ := Option.bind_eq_some_iff.1 h
      exact ih h
    · cases h

theorem lt_of_naturalBelow? (bound : Nat) (cs : List Char) (n : Nat)
    (h : naturalBelow? bound cs = some n) : n < bound := by
  unfold naturalBelow? at h
  split at h
  · cases h
  · exact lt_of_appendDigits h

example : naturalBelow? 100 "+007".toList = some 7 ∧ naturalBelow? 100 "100".toList = none ∧
    naturalBelow? 100 "+".toList = none ∧ naturalBelow? 100 "-0".toList = none := by
  decide +kernel

end AgileSeal.Text
