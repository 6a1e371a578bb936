import AgileSeal.Json.Problem

set_option autoImplicit false

/-! # Strings, numbers and literals of JSON

Each function here reads one token from the start of a list of characters and gives back
what follows it. A number keeps as many digits as 64 bits hold; further digits before the
point count as zeros and further digits after it are dropped.

An escape makes progress: the text behind it is shorter than the text it stands in
(`length_lt_of_scanEscape`). Reading a string ends for that reason.
-/

namespace AgileSeal.Json

/-- The outcome of reading a token: its value and the characters after it. -/
abbrev Scan (α : Type) := Except Fault (α × List Char)

/-- White space between tokens. -/
def isSpace (c : Char) : Bool := c = ' ' || c = '\n' || c = '\t' || c = '\r'

/-- The characters from the next token on. -/
def skipSpace (cs : List Char) : List Char := cs.dropWhile isSpace

/-! ## Strings -/

/-- The value of a hexadecimal digit. -/
def hexDigit? (c : Char) : Option Nat :=
  if c.isDigit then some (c.toNat - 48)
  else if 'a' ≤ c && c ≤ 'f' then some (c.toNat - 87)
  else if 'A' ≤ c && c ≤ 'F' then some (c.toNat - 55)
  else none

/-- The number that four hexadecimal digits stand for. -/
def hexQuad? (a b c d : Char) : Option Nat := do
  let a ← hexDigit? a
  let b ← hexDigit? b
  let c ← hexDigit? c
  let d ← hexDigit? d
  return a * 4096 + b * 256 + c * 16 + d

/-- Whether fewer than four bytes follow. -/
def hasFewBytes (cs : List Char) : Bool :=
  (cs.take 4).foldl (fun n c => n + c.utf8Size) 0 < 4

/-- Four hexadecimal digits. -/
def scanQuad (cs : List Char) : Scan Nat :=
  -- the text has to be long enough before its digits are looked at
  if hasFewBytes cs then .error .endOfString
  else
    match cs with
    | a :: b :: c :: d :: rest =>
      match hexQuad? a b c d with
      | some n => .ok (n, rest)
      | none => .error .invalidEscape
    | _ => .error .invalidEscape

/-- Whether a unit of UTF-16 is the first half of a character. -/
def isLeading (n : Nat) : Bool := 0xd800 ≤ n && n < 0xdc00

/-- Whether a unit of UTF-16 is the second half of a character. -/
def isTrailing (n : Nat) : Bool := 0xdc00 ≤ n && n < 0xe000

/-- The second half of a character whose first half has been read. -/
def scanTrailing (leading : Nat) : List Char → Scan Char
  | [] => .error .endOfString
  | ['\\'] => .error .endOfString
  | '\\' :: 'u' :: rest =>
    match scanQuad rest with
    | .error f => .error f
    | .ok (n, rest) =>
      if isTrailing n then
        .ok (Char.ofNat (0x10000 + (leading - 0xd800) * 0x400 + (n - 0xdc00)), rest)
      else .error .loneSurrogate
  | _ => .error .endOfEscape

/-- A character written as one or two units of UTF-16. -/
def scanUnits (cs : List Char) : Scan Char :=
  match scanQuad cs with
  | .error f => .error f
  | .ok (n, rest) =>
    if isTrailing n then .error .loneSurrogate
    else if isLeading n then scanTrailing n rest
    else .ok (Char.ofNat n, rest)

/-- The character that a letter after a backslash stands for. -/
def simpleEscape? : Char → Option Char
  | '"' => some '"'
  | '\\' => some '\\'
  | '/' => some '/'
  | 'b' => some '\x08'
  | 'f' => some '\x0c'
  | 'n' => some '\n'
  | 'r' => some '\r'
  | 't' => some '\t'
  | _ => none

/-- The character behind a backslash. -/
def scanEscape : List Char → Scan Char
  | [] => .error .endOfString
  | 'u' :: rest => scanUnits rest
  | c :: rest =>
    match simpleEscape? c with
    | some d => .ok (d, rest)
    | none => .error .invalidEscape

theorem length_lt_of_scanQuad {cs rest : List Char} {n : Nat}
    (h : scanQuad cs = .ok (n, rest)) : rest.length < cs.length := by
  unfold scanQuad at h
  split at h
  · cases h
  · split at h
    · split at h
      · cases h
        simp only [List.length_cons]
        omega
      · cases h
    · cases h

theorem length_lt_of_scanTrailing {leading : Nat} {cs rest : List Char} {c : Char}
    (h : scanTrailing leading cs = .ok (c, rest)) : rest.length < cs.length := by
  unfold scanTrailing at h
  split at h
  · cases h
  · cases h
  · split at h
    · cases h
    · rename_i quad
      have := length_lt_of_scanQuad quad
      split at h
      · obtain ⟨-, rfl⟩ := Prod.mk.inj (Except.ok.inj h)
        simp only [List.length_cons]
        omega
      · cases h
  · cases h

theorem length_lt_of_scanUnits {cs rest : List Char} {c : Char}
    (h : scanUnits cs = .ok (c, rest)) : rest.length < cs.length := by
  unfold scanUnits at h
  split at h
  · cases h
  · rename_i quad
    have := length_lt_of_scanQuad quad
    split at h
    · cases h
    · split at h
      · have := length_lt_of_scanTrailing h
        omega
      · obtain ⟨-, rfl⟩ := Prod.mk.inj (Except.ok.inj h)
        assumption

/-- The text behind an escape is shorter than the text from the escape on. -/
theorem length_lt_of_scanEscape {cs rest : List Char} {c : Char}
    (h : scanEscape cs = .ok (c, rest)) : rest.length < cs.length := by
  unfold scanEscape at h
  split at h
  · cases h
  · have := length_lt_of_scanUnits h
    simp only [List.length_cons]
    omega
  · split at h
    · cases h
      simp only [List.length_cons]
      omega
    · cases h

/-- The characters of a string up to its closing quote, added to those that have been read. -/
def scanText (text : String) : List Char → Scan String
  | [] => .error .endOfString
  | c :: rest =>
    if c = '"' then .ok (text, rest)
    else if c = '\\' then
      match h : scanEscape rest with
      | .error f => .error f
      | .ok (d, rest) =>
        have := length_lt_of_scanEscape h
        scanText (text.push d) rest
    else if c.toNat < 0x20 then .error .controlCharacter
    else scanText (text.push c) rest
termination_by cs => cs.length

/-- A string after its opening quote. -/
def scanString (cs : List Char) : Scan String := scanText "" cs

/-! ## Numbers -/

/-- Extends a number by digits while 64 bits hold it: the number, how many digits it took and
the characters from the first other one on. -/
def takeDigits : Nat → Nat → List Char → Nat × Nat × List Char
  | n, count, [] => (n, count, [])
  | n, count, c :: rest =>
    let next := n * 10 + (c.toNat - 48)
    if c.isDigit && next < 0x10000000000000000 then takeDigits next (count + 1) rest
    else (n, count, c :: rest)

/-- Whether a digit is next. -/
def startsWithDigit : List Char → Bool
  | [] => false
  | c :: _ => c.isDigit

/-- The double for a significand and a power of ten. -/
def finishDouble (negative : Bool) (significand : Nat) (exponent : Int) (rest : List Char) :
    Scan Number :=
  match Binary64.ofDecimal? significand exponent with
  | some x => .ok (.double negative x, rest)
  | none => .error .numberOutOfRange

/-- No exponent is counted beyond this one: a number with it is zero or out of range. -/
def exponentLimit : Nat := 0x80000000

/-- The value of all digits that follow, or the limit if they exceed it. -/
def exponentDigits (cs : List Char) : Nat :=
  (cs.takeWhile Char.isDigit).foldl (fun n c => min exponentLimit (n * 10 + (c.toNat - 48))) 0

/-- The sign of an exponent and the characters after it. -/
def exponentSign : List Char → Int × List Char
  | '+' :: rest => (1, rest)
  | '-' :: rest => (-1, rest)
  | cs => (1, cs)

/-- A number from the character after the letter of its exponent on. -/
def scanExponent (negative : Bool) (significand : Nat) (exponent : Int) (cs : List Char) :
    Scan Number :=
  let (sign, cs) := exponentSign cs
  if cs = [] then .error .endOfValue
  else if startsWithDigit cs then
    finishDouble negative significand (exponent + sign * (exponentDigits cs : Int))
      (cs.dropWhile Char.isDigit)
  else .error .invalidNumber

/-- A number from the end of its digits on, where an exponent may follow. -/
def scanAfterDigits (negative : Bool) (significand : Nat) (exponent : Int) :
    List Char → Scan Number
  | 'e' :: rest => scanExponent negative significand exponent rest
  | 'E' :: rest => scanExponent negative significand exponent rest
  | cs => finishDouble negative significand exponent cs

/-- A number from the character after its point on. -/
def scanFraction (negative : Bool) (significand : Nat) (exponent : Int) (cs : List Char) :
    Scan Number :=
  let (significand, count, rest) := takeDigits significand 0 cs
  if startsWithDigit rest then
    scanAfterDigits negative significand (exponent - (count : Int)) (rest.dropWhile Char.isDigit)
  else if count = 0 then .error (if rest = [] then .endOfValue else .invalidNumber)
  else scanAfterDigits negative significand (exponent - (count : Int)) rest

/-- A number without point and exponent. With a sign it is whole from `-1` down to
`-2 ^ 63`. -/
def wholeNumber (negative : Bool) (n : Nat) : Number :=
  if negative then
    -- no whole number is negative zero
    if n = 0 ∨ 0x8000000000000000 < n then .double true (Binary64.round n 1)
    else .whole (-(n : Int))
  else .whole n

/-- A number from the end of its whole part on. `dropped` digits did not fit. -/
def scanAfterWhole (negative : Bool) (significand dropped : Nat) : List Char → Scan Number
  | '.' :: rest => scanFraction negative significand dropped rest
  | 'e' :: rest => scanExponent negative significand dropped rest
  | 'E' :: rest => scanExponent negative significand dropped rest
  | cs =>
    if dropped = 0 then .ok (wholeNumber negative significand, cs)
    else finishDouble negative significand dropped cs

/-- A number after its sign. A leading zero stands alone. -/
def scanNumber (negative : Bool) : List Char → Scan Number
  | [] => .error .endOfValue
  | '0' :: rest =>
    if startsWithDigit rest then .error .invalidNumber else scanAfterWhole negative 0 0 rest
  | cs =>
    if startsWithDigit cs then
      let (significand, _, rest) := takeDigits 0 0 cs
      let dropped := (rest.takeWhile Char.isDigit).length
      scanAfterWhole negative significand dropped (rest.drop dropped)
    else .error .invalidNumber

/-! ## Literals and whole values -/

/-- The remaining characters of a literal. -/
def scanLiteral : List Char → List Char → Except Fault (List Char)
  | [], cs => .ok cs
  | _ :: _, [] => .error .endOfValue
  | e :: expected, c :: rest =>
    if c = e then scanLiteral expected rest else .error .expectedLiteral

/-- What stands at the start of a document that goes on with some token. Lists and objects
are not looked into. -/
def found : List Char → Except Fault Found
  | 'n' :: rest => (scanLiteral ['u', 'l', 'l'] rest).map fun _ => .null
  | 't' :: rest => (scanLiteral ['r', 'u', 'e'] rest).map fun _ => .flag true
  | 'f' :: rest => (scanLiteral ['a', 'l', 's', 'e'] rest).map fun _ => .flag false
  | '-' :: rest => (scanNumber true rest).map fun n => .number n.1
  | '"' :: rest => (scanString rest).map fun s => .text s.1
  | '[' :: _ => .ok .list
  | '\x7b' :: _ => .ok .object
  | cs =>
    if startsWithDigit cs then (scanNumber false cs).map fun n => .number n.1
    else .error .expectedValue

end AgileSeal.Json
