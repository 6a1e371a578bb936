import AgileSeal.Json.Printer
import AgileSeal.Json.Scan

set_option autoImplicit false

/-! # How a string may be spelled

A character may stand for itself inside a string, be named by a letter behind a backslash, or be
given as one or two units of UTF-16 in hexadecimal digits of either case (`CharText`). A string is
spelled character by character (`Spells`), so most strings have many spellings. All of them are
read as the string (`scanString_of_spells`), and the one that is printed is one of them
(`spells_escaped`).
-/

namespace AgileSeal.Json

/-! ## Characters -/

/-- The hexadecimal digits with their values. -/
def hexDigits : List (Char × Nat) :=
  "0123456789abcdef".toList.zipIdx ++ "ABCDEF".toList.zipIdx 10

/-- Four hexadecimal digits and their number. -/
inductive Quad : Nat → List Char → Prop
  | mk {a b c d : Char} {w x y z : Nat} (first : (a, w) ∈ hexDigits) (second : (b, x) ∈ hexDigits)
    (third : (c, y) ∈ hexDigits) (fourth : (d, z) ∈ hexDigits) :
    Quad (w * 4096 + x * 256 + y * 16 + z) [a, b, c, d]

/-- The characters that a letter names behind a backslash. -/
def escapeLetters : List (Char × Char) :=
  [('"', '"'), ('\\', '\\'), ('/', '/'), ('b', '\x08'), ('f', '\x0c'), ('n', '\n'), ('r', '\r'),
    ('t', '\t')]

/-- **How a character may be written** inside a string. -/
inductive CharText : Char → List Char → Prop
  | plain {c : Char} (notQuote : c ≠ '"') (notBackslash : c ≠ '\\')
    (notControl : 0x20 ≤ c.toNat) : CharText c [c]
  | letter {c letter : Char} (named : (letter, c) ∈ escapeLetters) : CharText c ['\\', letter]
  | unit {c : Char} {digits : List Char} (quad : Quad c.toNat digits) :
    CharText c ('\\' :: 'u' :: digits)
  | pair {c : Char} {leading trailing : Nat} {digits digits' : List Char}
    (first : Quad leading digits) (second : Quad trailing digits')
    (isLeading : 0xd800 ≤ leading ∧ leading < 0xdc00)
    (isTrailing : 0xdc00 ≤ trailing ∧ trailing < 0xe000)
    (code : c.toNat = 0x10000 + (leading - 0xd800) * 0x400 + (trailing - 0xdc00)) :
    CharText c ('\\' :: 'u' :: (digits ++ '\\' :: 'u' :: digits'))

/-- Four digits are scanned as their number, whatever stands behind them. -/
theorem Quad.scanQuad {n : Nat} {digits : List Char} (h : Quad n digits) (rest : List Char) :
    scanQuad (digits ++ rest) = .ok (n, rest) := by
  have hdigits : ∀ p ∈ hexDigits, hexDigit? p.1 = some p.2 := by decide
  obtain @⟨a, b, c, d, w, x, y, z, ha, hb, hc, hd⟩ := h
  have hquad : hexQuad? a b c d = some (w * 4096 + x * 256 + y * 16 + z) := by
    rw [hexQuad?, hdigits _ ha, hdigits _ hb, hdigits _ hc, hdigits _ hd]
    rfl
  -- the scanner counts bytes before it looks at digits, and every character has one at least
  have hlong : ¬hasFewBytes (a :: b :: c :: d :: rest) = true := by
    have hbytes (e : Char) : 1 ≤ e.utf8Size := e.utf8Size_pos
    have ha := hbytes a
    have hb := hbytes b
    have hc := hbytes c
    have hd := hbytes d
    show ¬decide (0 + a.utf8Size + b.utf8Size + c.utf8Size + d.utf8Size < 4) = true
    rw [decide_eq_true_eq]
    omega
  show Json.scanQuad (a :: b :: c :: d :: rest) = _
  rw [Json.scanQuad, if_neg hlong]
  simp only [hquad]

/-- No character is half a character of UTF-16. -/
theorem not_half (c : Char) : isTrailing c.toNat = false ∧ isLeading c.toNat = false := by
  have hvalid : c.toNat.isValidChar := c.valid
  rw [isTrailing, isLeading, Bool.and_eq_false_iff, Bool.and_eq_false_iff,
    decide_eq_false_iff_not, decide_eq_false_iff_not, decide_eq_false_iff_not,
    decide_eq_false_iff_not]
  rcases hvalid with hsmall | ⟨hlarge, -⟩
  · omega
  · omega

theorem scanEscape_unit {c : Char} {digits : List Char} (h : Quad c.toNat digits)
    (rest : List Char) : scanEscape ('u' :: (digits ++ rest)) = .ok (c, rest) := by
  obtain ⟨htrailing, hleading⟩ := not_half c
  rw [scanEscape, scanUnits, h.scanQuad rest]
  simp only [htrailing, hleading, Bool.false_eq_true, if_false, Char.ofNat_toNat]

theorem scanEscape_pair {c : Char} {leading trailing : Nat} {digits digits' : List Char}
    (hfirst : Quad leading digits) (hsecond : Quad trailing digits')
    (hleading : 0xd800 ≤ leading ∧ leading < 0xdc00)
    (htrailing : 0xdc00 ≤ trailing ∧ trailing < 0xe000)
    (hcode : c.toNat = 0x10000 + (leading - 0xd800) * 0x400 + (trailing - 0xdc00))
    (rest : List Char) :
    scanEscape ('u' :: (digits ++ '\\' :: 'u' :: (digits' ++ rest))) = .ok (c, rest) := by
  have hnot : isTrailing leading = false := by
    rw [isTrailing, Bool.and_eq_false_iff, decide_eq_false_iff_not, decide_eq_false_iff_not]
    omega
  have hlead : isLeading leading = true := by
    rw [isLeading, Bool.and_eq_true, decide_eq_true_eq, decide_eq_true_eq]
    exact hleading
  have htrail : isTrailing trailing = true := by
    rw [isTrailing, Bool.and_eq_true, decide_eq_true_eq, decide_eq_true_eq]
    exact htrailing
  rw [scanEscape, scanUnits, hfirst.scanQuad]
  simp only [hnot, hlead, Bool.false_eq_true, if_false, if_true]
  rw [scanTrailing, hsecond.scanQuad]
  simp only [htrail, if_true]
  rw [← hcode, Char.ofNat_toNat]

theorem scanText_of_scanEscape {text : String} {rest rest' : List Char} {d : Char}
    (h : scanEscape rest = .ok (d, rest')) :
    scanText text ('\\' :: rest) = scanText (text.push d) rest' := by
  rw [scanText, if_neg (by decide), if_pos rfl]
  split
  · rename_i f hf
    cases h.symm.trans hf
  · rename_i d' rest'' hd
    cases h.symm.trans hd
    rfl

theorem scanText_plain {text : String} {c : Char} (hquote : c ≠ '"') (hslash : c ≠ '\\')
    (hcontrol : ¬c.toNat < 0x20) (rest : List Char) :
    scanText text (c :: rest) = scanText (text.push c) rest := by
  rw [scanText, if_neg hquote, if_neg hslash, if_neg hcontrol]

/-- **However a character is written**, it is read as this character. -/
theorem CharText.scanText {c : Char} {written : List Char} (h : CharText c written)
    (text : String) (rest : List Char) :
    scanText text (written ++ rest) = scanText (text.push c) rest := by
  cases h with
  | plain notQuote notBackslash notControl =>
      exact scanText_plain notQuote notBackslash (Nat.not_lt.mpr notControl) rest
  | letter named =>
      have hletters : ∀ p ∈ escapeLetters, scanEscape (p.1 :: rest) = .ok (p.2, rest) := by
        iterate 8 refine List.forall_mem_cons.mpr ⟨rfl, ?_⟩
        exact List.forall_mem_nil _
      exact scanText_of_scanEscape (hletters _ named)
  | unit quad => exact scanText_of_scanEscape (scanEscape_unit quad rest)
  | @pair leading trailing digits digits' first second isLeading isTrailing code =>
      have hpair := scanEscape_pair first second isLeading isTrailing code rest
      have happend : '\\' :: 'u' :: (digits ++ '\\' :: 'u' :: digits') ++ rest
          = '\\' :: 'u' :: (digits ++ '\\' :: 'u' :: (digits' ++ rest)) := by simp
      rw [happend]
      exact scanText_of_scanEscape hpair

/-! ## Strings -/

/-- **The spellings of a string**: each of its characters is written in one of its ways. -/
inductive Spells : List Char → List Char → Prop
  | nil : Spells [] []
  | cons {c : Char} {cs written text : List Char} (head : CharText c written)
    (tail : Spells cs text) : Spells (c :: cs) (written ++ text)

/-- A spelling is read up to the quote behind it. The induction is on the spelling; what has been
read so far grows by one character with each step. -/
theorem Spells.scanText {cs text : List Char} (h : Spells cs text) (soFar : String)
    (rest : List Char) :
    scanText soFar (text ++ '"' :: rest) = .ok (soFar ++ String.ofList cs, rest) := by
  induction h generalizing soFar with
  | nil => rw [List.nil_append, Json.scanText, if_pos rfl, String.ofList_nil, String.append_empty]
  | @cons c cs written text head tail ih =>
      rw [List.append_assoc, head.scanText, ih]
      congr 2
      apply String.toList_inj.mp
      simp

/-- **All spellings of a string** are read as the string. -/
theorem scanString_of_spells {s : String} {text : List Char} (h : Spells s.toList text)
    (rest : List Char) : scanString (text ++ '"' :: rest) = .ok (s, rest) := by
  rw [scanString, h.scanText, String.empty_append, String.ofList_toList]

/-! ## Printed strings -/

/-- How a character is printed is a way of writing it. -/
theorem charText_escaped (c : Char) : CharText c (Printed.escaped c) := by
  rw [Printed.escaped]
  -- seven characters are printed with the letter that names them
  iterate 7
    split
    · subst c
      exact .letter (by decide)
  split
  · rename_i hcontrol
    have hdigits : ∀ n < 0x20, ('0', 0) ∈ hexDigits ∧
        (Printed.hexDigit (n / 16), n / 16) ∈ hexDigits ∧
        (Printed.hexDigit (n % 16), n % 16) ∈ hexDigits := by
      decide +kernel
    obtain ⟨hzero, hhigh, hlow⟩ := hdigits c.toNat hcontrol
    refine .unit ?_
    have hnumber : 0 * 4096 + 0 * 256 + c.toNat / 16 * 16 + c.toNat % 16 = c.toNat := by omega
    have hquad := Quad.mk hzero hzero hhigh hlow
    rwa [hnumber] at hquad
  · rename_i hquote hslash _ _ _ _ _ hcontrol
    exact .plain hquote hslash (Nat.not_lt.mp hcontrol)

/-- **How a string is printed** is one of its spellings. -/
theorem spells_escaped (cs : List Char) : Spells cs (cs.flatMap Printed.escaped) := by
  induction cs with
  | nil => exact .nil
  | cons c cs ih => exact .cons (charText_escaped c) ih

end AgileSeal.Json
