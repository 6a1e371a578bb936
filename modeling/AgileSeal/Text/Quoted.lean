import AgileSeal.Text.Printable

set_option autoImplicit false

/-! # Quoted text

A text is shown in diagnostics between double quotes. Quotes and backslashes inside it are
marked with a backslash, the four common control characters have a letter each, and any
other character without a visible form is written as its code point in hexadecimal.
-/

namespace AgileSeal.Text

/-- How one character stands inside quotes. -/
def quotedChar (c : Char) : List Char :=
  if c = '\x00' then ['\\', '0']
  else if c = '\t' then ['\\', 't']
  else if c = '\r' then ['\\', 'r']
  else if c = '\n' then ['\\', 'n']
  else if c = '"' then ['\\', '"']
  else if c = '\\' then ['\\', '\\']
  else if isHidden c then ['\\', 'u', '\x7b'] ++ Nat.toDigits 16 c.toNat ++ ['\x7d']
  else [c]

/-- A text between quotes. -/
def quoted (s : String) : String :=
  String.ofList (['"'] ++ s.toList.flatMap quotedChar ++ ['"'])

/-- A list of texts, each between quotes. -/
def quotedList (texts : List String) : String :=
  "[" ++ String.intercalate ", " (texts.map quoted) ++ "]"

example : quoted "a\"\n" = "\"a\\\"\\n\"" := by decide +kernel
example : quotedList ["X", "Y"] = "[\"X\", \"Y\"]" := by decide +kernel

end AgileSeal.Text
