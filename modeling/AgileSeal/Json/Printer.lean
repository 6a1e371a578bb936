set_option autoImplicit false

/-! # Printing JSON

Documents are printed with one field or item a line, each level indented by two spaces.
Empty lists and objects stay on one line. A printed value depends on the depth at which it
stands.
-/

namespace AgileSeal.Json

/-- The text of a value at a depth. -/
abbrev Printed := Nat → List Char

namespace Printed

/-- A hexadecimal digit. -/
def hexDigit (n : Nat) : Char := if n < 10 then Char.ofNat (n + 48) else Char.ofNat (n + 87)

/-- How a character stands inside a string. -/
def escaped (c : Char) : List Char :=
  if c = '"' then ['\\', '"']
  else if c = '\\' then ['\\', '\\']
  else if c = '\x08' then ['\\', 'b']
  else if c = '\x0c' then ['\\', 'f']
  else if c = '\n' then ['\\', 'n']
  else if c = '\r' then ['\\', 'r']
  else if c = '\t' then ['\\', 't']
  else if c.toNat < 0x20 then
    ['\\', 'u', '0', '0', hexDigit (c.toNat / 16), hexDigit (c.toNat % 16)]
  else [c]

/-- The characters of a string between its quotes. -/
def quotedChars (s : String) : List Char := '"' :: s.toList.flatMap escaped ++ ['"']

/-- A string. -/
def text (s : String) : Printed := fun _ => quotedChars s

/-- A whole number. -/
def natural (n : Nat) : Printed := fun _ => Nat.toDigits 10 n

/-- A line break and the indentation of a depth. -/
def newLine (depth : Nat) : List Char := '\n' :: List.replicate (2 * depth) ' '

/-- Items on lines of their own, with commas between them. -/
def lines (depth : Nat) : List (List Char) → List Char
  | [] => []
  | [item] => newLine depth ++ item
  | item :: rest => newLine depth ++ item ++ ',' :: lines depth rest

/-- Items between brackets. -/
def bracketed (opening closing : Char) (items : List (List Char)) (depth : Nat) : List Char :=
  if items.isEmpty then [opening, closing]
  else opening :: lines (depth + 1) items ++ newLine depth ++ [closing]

/-- A list. -/
def list (items : List Printed) : Printed := fun depth =>
  bracketed '[' ']' (items.map fun item => item (depth + 1)) depth

/-- An object. -/
def object (fields : List (String × Printed)) : Printed := fun depth =>
  bracketed '\x7b' '\x7d'
    (fields.map fun field => quotedChars field.1 ++ [':', ' '] ++ field.2 (depth + 1)) depth

/-- A whole document. -/
def document (p : Printed) : String := String.ofList (p 0)

end Printed

end AgileSeal.Json
