set_option autoImplicit false

/-! # Blanks and letter case

Names read from a configuration may be surrounded by white space, as the Unicode character
database defines it, and are compared without regard to the case of the ASCII letters.
Trimming leaves nothing of a text exactly when the text is all blanks
(`trimChars_eq_nil_iff`).
-/

namespace AgileSeal.Text

/-- Whether a character is white space in the Unicode character database. -/
def isBlank (c : Char) : Bool :=
  (0x9 ≤ c.toNat && c.toNat ≤ 0xd) || c.toNat == 0x20 || c.toNat == 0x85 || c.toNat == 0xa0 ||
    c.toNat == 0x1680 || (0x2000 ≤ c.toNat && c.toNat ≤ 0x200a) || c.toNat == 0x2028 ||
    c.toNat == 0x2029 || c.toNat == 0x202f || c.toNat == 0x205f || c.toNat == 0x3000

/-- Every character that is white space in ASCII is a blank. -/
theorem isBlank_of_isWhitespace (c : Char) (h : c.isWhitespace = true) : isBlank c = true := by
  simp only [Char.isWhitespace, Bool.or_eq_true, decide_eq_true_eq] at h
  rcases h with ((h | h) | h) | h <;> subst h <;> rfl

/-- A list of characters without the blanks at its end. -/
def trimEnd (cs : List Char) : List Char := (cs.reverse.dropWhile isBlank).reverse

/-- A list of characters without the blanks at its two ends. -/
def trimChars (cs : List Char) : List Char := trimEnd (cs.dropWhile isBlank)

/-- A text without the blanks at its two ends. -/
def trim (s : String) : String := String.ofList (trimChars s.toList)

/-- Whether a text holds nothing but blanks. -/
def isAllBlank (s : String) : Bool := s.toList.all isBlank

/-- Whether two texts differ at most in the case of ASCII letters. -/
def sameName (a b : String) : Bool := a.toList.map Char.toLower == b.toList.map Char.toLower

theorem dropWhile_isBlank_eq_nil_iff (cs : List Char) :
    cs.dropWhile isBlank = [] ↔ cs.all isBlank = true := by
  induction cs with
  | nil => simp
  | cons c cs ih => by_cases h : isBlank c <;> simp [h, ih]

theorem trimChars_eq_nil_iff (cs : List Char) : trimChars cs = [] ↔ cs.all isBlank = true := by
  unfold trimChars trimEnd
  rw [List.reverse_eq_nil_iff, dropWhile_isBlank_eq_nil_iff, List.all_reverse]
  induction cs with
  | nil => simp
  | cons c cs ih => by_cases h : isBlank c <;> simp_all

theorem sameName_self (a : String) : sameName a a = true := by simp [sameName]

end AgileSeal.Text
