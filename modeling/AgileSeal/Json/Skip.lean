import AgileSeal.Json.Scan

set_option autoImplicit false

/-! # Skipping a value

The value of an unknown field is passed over without being kept. Only its form is checked:
numbers may have any size, and escapes in strings need not stand for a character. Values may
be nested to any depth; the brackets that are still open are kept in a list.

Every token makes progress, as the lemmas beside the functions say: the text behind it is
shorter. The one step that takes nothing turns from an opened bracket to its first item, so
every step brings the end nearer (`bound_lt_of_skipStep`) and skipping ends.
-/

namespace AgileSeal.Json

/-! ## Tokens -/

/-- The characters after the digits of an exponent. -/
def skipExponent (cs : List Char) : Except Fault (List Char) :=
  let cs := (exponentSign cs).2
  if startsWithDigit cs then .ok (cs.dropWhile Char.isDigit) else .error .invalidNumber

/-- The characters after an optional exponent. -/
def skipAfterDigits : List Char → Except Fault (List Char)
  | 'e' :: rest => skipExponent rest
  | 'E' :: rest => skipExponent rest
  | cs => .ok cs

/-- The characters after an optional fraction and exponent. -/
def skipAfterWhole : List Char → Except Fault (List Char)
  | '.' :: rest =>
    if startsWithDigit rest then skipAfterDigits (rest.dropWhile Char.isDigit)
    else .error .invalidNumber
  | cs => skipAfterDigits cs

/-- The characters after a number, from behind its sign. -/
def skipNumber : List Char → Except Fault (List Char)
  | '0' :: rest => if startsWithDigit rest then .error .invalidNumber else skipAfterWhole rest
  | cs =>
    if startsWithDigit cs then skipAfterWhole (cs.dropWhile Char.isDigit)
    else .error .invalidNumber

theorem length_exponentSign_le (cs : List Char) : (exponentSign cs).2.length ≤ cs.length := by
  unfold exponentSign
  split <;> simp only [List.length_cons] <;> omega

theorem length_dropWhile_le (p : Char → Bool) (cs : List Char) :
    (cs.dropWhile p).length ≤ cs.length :=
  (List.dropWhile_sublist p).length_le

theorem length_le_of_skipExponent {cs rest : List Char} (h : skipExponent cs = .ok rest) :
    rest.length ≤ cs.length := by
  simp only [skipExponent] at h
  split at h
  · cases h
    exact Nat.le_trans (length_dropWhile_le _ _) (length_exponentSign_le cs)
  · cases h

theorem length_le_of_skipAfterDigits {cs rest : List Char} (h : skipAfterDigits cs = .ok rest) :
    rest.length ≤ cs.length := by
  unfold skipAfterDigits at h
  split at h
  · exact Nat.le_succ_of_le (length_le_of_skipExponent h)
  · exact Nat.le_succ_of_le (length_le_of_skipExponent h)
  · cases h
    exact Nat.le_refl _

theorem length_le_of_skipAfterWhole {cs rest : List Char} (h : skipAfterWhole cs = .ok rest) :
    rest.length ≤ cs.length := by
  unfold skipAfterWhole at h
  split at h
  · split at h
    · exact Nat.le_succ_of_le
        (Nat.le_trans (length_le_of_skipAfterDigits h) (length_dropWhile_le _ _))
    · cases h
  · exact length_le_of_skipAfterDigits h

/-- A number has a digit at least. -/
theorem length_lt_of_skipNumber {cs rest : List Char} (h : skipNumber cs = .ok rest) :
    rest.length < cs.length := by
  unfold skipNumber at h
  split at h
  · split at h
    · cases h
    · exact Nat.lt_succ_of_le (length_le_of_skipAfterWhole h)
  · split at h
    · rename_i digit
      refine Nat.lt_of_le_of_lt (length_le_of_skipAfterWhole h) ?_
      cases cs with
      | nil => cases digit
      | cons c cs =>
        have isDigit : c.isDigit = true := digit
        rw [List.dropWhile_cons_of_pos isDigit]
        exact Nat.lt_succ_of_le (length_dropWhile_le _ _)
    · cases h

theorem length_le_of_scanLiteral {expected cs rest : List Char}
    (h : scanLiteral expected cs = .ok rest) : rest.length ≤ cs.length := by
  fun_induction scanLiteral expected cs with
  | case1 => cases h; exact Nat.le_refl _
  | case2 => cases h
  | case3 _ _ _ ih => exact Nat.le_succ_of_le (ih h)
  | case4 => cases h

/-- The characters after an escape, from behind its backslash. -/
def skipEscape : List Char → Except Fault (List Char)
  | [] => .error .endOfString
  | 'u' :: rest => (scanQuad rest).map (·.2)
  | c :: rest => if (simpleEscape? c).isSome then .ok rest else .error .invalidEscape

theorem length_lt_of_skipEscape {cs rest : List Char} (h : skipEscape cs = .ok rest) :
    rest.length < cs.length := by
  unfold skipEscape at h
  split at h
  · cases h
  · rename_i digits
    cases quad : scanQuad digits with
    | error f => rw [quad] at h; cases h
    | ok r =>
      rw [quad] at h
      cases h
      have := length_lt_of_scanQuad quad
      simp only [List.length_cons]
      omega
  · split at h
    · cases h
      simp only [List.length_cons]
      omega
    · cases h

/-- The characters after a string, from behind its opening quote. -/
def skipText : List Char → Except Fault (List Char)
  | [] => .error .endOfString
  | c :: rest =>
    if c = '"' then .ok rest
    else if c = '\\' then
      match h : skipEscape rest with
      | .error f => .error f
      | .ok rest =>
        have := length_lt_of_skipEscape h
        skipText rest
    else if c.toNat < 0x20 then .error .controlCharacter
    else skipText rest
termination_by cs => cs.length

/-- A string takes its closing quote at least. -/
theorem length_lt_of_skipText {cs rest : List Char} (h : skipText cs = .ok rest) :
    rest.length < cs.length := by
  fun_induction skipText cs with
  | case1 => cases h
  | case2 => cases h; exact Nat.lt_succ_self _
  | case3 => cases h
  | case4 _ _ _ shorter _ ih => exact Nat.lt_succ_of_lt (Nat.lt_trans (ih h) shorter)
  | case5 => cases h
  | case6 _ _ _ _ _ ih => exact Nat.lt_succ_of_lt (ih h)

/-! ## Values -/

/-- A bracket that has been opened. -/
inductive Bracket
  | list
  | object

/-- The fault of a text that ends inside a bracket. -/
def Bracket.endFault : Bracket → Fault
  | .list => .endOfList
  | .object => .endOfObject

/-- The fault of a value that is followed by neither a comma nor the closing bracket. -/
def Bracket.closeFault : Bracket → Fault
  | .list => .expectedListEnd
  | .object => .expectedObjectEnd

/-- The closing bracket. -/
def Bracket.closing : Bracket → Char
  | .list => ']'
  | .object => '\x7d'

/-- What may come next. -/
inductive Stage
  /-- A value. -/
  | value
  /-- The closing bracket or the first item of the innermost bracket. -/
  | opened
  /-- The closing bracket or a comma and a further item. -/
  | closed
  /-- The key of an object's field. -/
  | key
deriving DecidableEq

/-- How many steps may follow that take no character. -/
def Stage.pause : Stage → Nat
  | .opened => 1
  | _ => 0

/-- The stage in which an item of a bracket is read. -/
def Bracket.item : Bracket → Stage
  | .list => .value
  | .object => .key

theorem Bracket.pause_item (bracket : Bracket) : bracket.item.pause = 0 := by
  cases bracket <;> rfl

/-- A value that is no list and no object, and that starts with the given character. -/
def skipPlain (c : Char) (rest : List Char) : Except Fault (List Char) :=
  if c = 'n' then scanLiteral ['u', 'l', 'l'] rest
  else if c = 't' then scanLiteral ['r', 'u', 'e'] rest
  else if c = 'f' then scanLiteral ['a', 'l', 's', 'e'] rest
  else if c = '-' then skipNumber rest
  else if c = '"' then skipText rest
  else if c.isDigit then skipNumber (c :: rest)
  else .error .expectedValue

theorem length_le_of_skipPlain {c : Char} {cs rest : List Char}
    (h : skipPlain c cs = .ok rest) : rest.length ≤ cs.length := by
  unfold skipPlain at h
  split at h
  · exact length_le_of_scanLiteral h
  split at h
  · exact length_le_of_scanLiteral h
  split at h
  · exact length_le_of_scanLiteral h
  split at h
  · exact Nat.le_of_lt (length_lt_of_skipNumber h)
  split at h
  · exact Nat.le_of_lt (length_lt_of_skipText h)
  split at h
  · exact Nat.le_of_lt_succ (length_lt_of_skipNumber h)
  · cases h

/-- The characters behind a key and its colon, from the key on. -/
def skipKey (cs : List Char) : Except Fault (List Char) :=
  match skipSpace cs with
  | [] => .error .endOfObject
  | '"' :: rest =>
    match skipText rest with
    | .error f => .error f
    | .ok rest =>
      match skipSpace rest with
      | [] => .error .endOfObject
      | ':' :: rest => .ok rest
      | _ => .error .expectedColon
  | _ => .error .keyNotString

theorem length_lt_of_skipKey {cs rest : List Char} (h : skipKey cs = .ok rest) :
    rest.length < cs.length := by
  unfold skipKey at h
  have blank := length_dropWhile_le isSpace cs
  split at h
  · cases h
  · rename_i quoted space
    rw [← skipSpace, space, List.length_cons] at blank
    split at h
    · cases h
    · rename_i behind text
      have := length_lt_of_skipText text
      have blank := length_dropWhile_le isSpace behind
      split at h
      · cases h
      · rename_i space
        rw [← skipSpace, space, List.length_cons] at blank
        cases h
        omega
      · cases h
  · cases h

/-! ## Steps -/

/-- A position in a value that is being skipped: what may come next, the brackets that are open
from the innermost one on, and the text. -/
abbrev Position := Stage × List Bracket × List Char

/-- The position behind the first token of a value. -/
def skipStart (opened : List Bracket) (cs : List Char) : Except Fault Position :=
  match skipSpace cs with
  | [] => .error .endOfValue
  | c :: rest =>
    if c = '[' then .ok (.opened, .list :: opened, rest)
    else if c = '\x7b' then .ok (.opened, .object :: opened, rest)
    else
      match skipPlain c rest with
      | .error f => .error f
      | .ok rest => .ok (.closed, opened, rest)

/-- The position behind a bracket that holds nothing, or that of its first item. -/
def skipOpened (bracket : Bracket) (outer : List Bracket) (cs : List Char) :
    Except Fault Position :=
  match skipSpace cs with
  | [] => .error bracket.endFault
  | c :: rest =>
    if c = bracket.closing then .ok (.closed, outer, rest)
    else .ok (bracket.item, bracket :: outer, c :: rest)

/-- The position behind the comma or the closing bracket that follows an item. -/
def skipClosed (bracket : Bracket) (outer : List Bracket) (cs : List Char) :
    Except Fault Position :=
  match skipSpace cs with
  | [] => .error bracket.endFault
  | c :: rest =>
    if c = ',' then .ok (bracket.item, bracket :: outer, rest)
    else if c = bracket.closing then .ok (.closed, outer, rest)
    else .error bracket.closeFault

/-- One step of skipping, which leads to the next position. -/
def skipStep : Position → Except Fault Position
  | (.value, opened, cs) => skipStart opened cs
  | (.key, opened, cs) =>
    match skipKey cs with
    | .error f => .error f
    | .ok rest => .ok (.value, opened, rest)
  -- outside of all brackets the value is over
  | (_, [], cs) => .ok (.closed, [], cs)
  | (.opened, bracket :: outer, cs) => skipOpened bracket outer cs
  | (.closed, bracket :: outer, cs) => skipClosed bracket outer cs

/-- A bound on the steps from a position: two for each character, and one more where the first
item of a bracket may start, since turning to it takes no character. -/
def Position.bound : Position → Nat
  | (stage, _, cs) => 2 * cs.length + stage.pause

theorem bound_lt_of_skipStart {opened : List Bracket} {cs : List Char} {next : Position}
    (h : skipStart opened cs = .ok next) : next.bound < 2 * cs.length := by
  have blank := length_dropWhile_le isSpace cs
  unfold skipStart at h
  split at h
  · cases h
  · rename_i space
    rw [← skipSpace, space, List.length_cons] at blank
    split at h
    · cases h
      simp only [Position.bound, Stage.pause]
      omega
    split at h
    · cases h
      simp only [Position.bound, Stage.pause]
      omega
    split at h
    · cases h
    · rename_i plain
      have := length_le_of_skipPlain plain
      cases h
      simp only [Position.bound, Stage.pause]
      omega

theorem bound_le_of_skipOpened {bracket : Bracket} {outer : List Bracket} {cs : List Char}
    {next : Position} (h : skipOpened bracket outer cs = .ok next) :
    next.bound ≤ 2 * cs.length := by
  have blank := length_dropWhile_le isSpace cs
  unfold skipOpened at h
  split at h
  · cases h
  · rename_i space
    rw [← skipSpace, space, List.length_cons] at blank
    split at h
    · cases h
      simp only [Position.bound, Stage.pause]
      omega
    · cases h
      simp only [Position.bound, Bracket.pause_item, List.length_cons]
      omega

theorem bound_lt_of_skipClosed {bracket : Bracket} {outer : List Bracket} {cs : List Char}
    {next : Position} (h : skipClosed bracket outer cs = .ok next) :
    next.bound < 2 * cs.length := by
  have blank := length_dropWhile_le isSpace cs
  unfold skipClosed at h
  split at h
  · cases h
  · rename_i space
    rw [← skipSpace, space, List.length_cons] at blank
    split at h
    · cases h
      simp only [Position.bound, Bracket.pause_item]
      omega
    split at h
    · cases h
      simp only [Position.bound, Stage.pause]
      omega
    · cases h

/-- The end of a value that is in no bracket. -/
def Position.isEnd : Position → Bool
  | (.closed, [], _) => true
  | _ => false

/-- A step that does not stand at the end brings the end nearer. -/
theorem bound_lt_of_skipStep {position next : Position} (h : skipStep position = .ok next)
    (unfinished : ¬position.isEnd) : next.bound < position.bound := by
  obtain ⟨stage, opened, cs⟩ := position
  cases stage with
  | value => exact bound_lt_of_skipStart h
  | key =>
    simp only [skipStep] at h
    split at h
    · cases h
    · rename_i key
      have := length_lt_of_skipKey key
      cases h
      simp only [Position.bound, Stage.pause]
      omega
  | opened =>
    cases opened with
    | nil => cases h; exact Nat.lt_succ_self _
    | cons bracket outer => exact Nat.lt_succ_of_le (bound_le_of_skipOpened h)
  | closed =>
    cases opened with
    | nil => exact absurd rfl unfinished
    | cons bracket outer => exact bound_lt_of_skipClosed h

/-- The characters after a value, from a position in it on. -/
def skipFrom (position : Position) : Except Fault (List Char) :=
  if ended : position.isEnd then .ok position.2.2
  else
    match h : skipStep position with
    | .error f => .error f
    | .ok next =>
      have := bound_lt_of_skipStep h ended
      skipFrom next
termination_by position.bound

/-- The characters after a value. -/
def skipValue (cs : List Char) : Except Fault (List Char) := skipFrom (.value, [], cs)

/-- Skipping looks at the form alone: a surrogate may stand without its partner, but a list has
to be closed. -/
example : (skipValue "[1, \x7b\"a\": \"\\ud800\"\x7d] ,".toList).toOption = some " ,".toList ∧
    (skipValue "[[]".toList).toOption = none := by decide +kernel

end AgileSeal.Json
