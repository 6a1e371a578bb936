import AgileSeal.Text.Blank
import AgileSeal.Text.Utf8

set_option autoImplicit false

/-! # Base64

Keys in a key file are written in base64 with the standard alphabet. Every byte string has
one spelling: padding fills the last group up to four symbols and the bits that no byte
needs are zero. Blanks around the text are ignored.

A text that is not canonical is refused with the first problem found. The text is scanned in
pieces of eight symbols, and padding may stand in the last piece only.
-/

namespace AgileSeal.Base64

/-! ## The alphabet -/

/-- The byte of the symbol for a value below 64. -/
def symbol (value : Nat) : UInt8 :=
  if value < 26 then UInt8.ofNat (value + 65)
  else if value < 52 then UInt8.ofNat (value + 71)
  else if value < 62 then UInt8.ofNat (value - 4)
  else if value = 62 then 43
  else 47

/-- The value of a symbol. -/
def value? (byte : UInt8) : Option Nat :=
  let n := byte.toNat
  if 65 ≤ n && n ≤ 90 then some (n - 65)
  else if 97 ≤ n && n ≤ 122 then some (n - 71)
  else if 48 ≤ n && n ≤ 57 then some (n + 4)
  else if n = 43 then some 62
  else if n = 47 then some 63
  else none

/-- The byte that fills up the last group. -/
def padByte : UInt8 := 61

/-- Reading a symbol gives its value back. -/
theorem value?_symbol (v : Nat) (h : v < 64) : value? (symbol v) = some v := by
  have all : ∀ v < 64, value? (symbol v) = some v := by decide +kernel
  exact all v h

/-! ## Writing -/

/-- The symbols of a byte string, with the padding of the last group. -/
def encodeBytes : Bytes → Bytes
  | [] => []
  | [a] => [symbol (a.toNat / 4), symbol (a.toNat % 4 * 16), padByte, padByte]
  | [a, b] =>
    [symbol (a.toNat / 4), symbol (a.toNat % 4 * 16 + b.toNat / 16),
      symbol (b.toNat % 16 * 4), padByte]
  | a :: b :: c :: rest =>
    symbol (a.toNat / 4) :: symbol (a.toNat % 4 * 16 + b.toNat / 16) ::
      symbol (b.toNat % 16 * 4 + c.toNat / 64) :: symbol (c.toNat % 64) :: encodeBytes rest

/-- The base64 text of a byte string. -/
def encode (bytes : Bytes) : String :=
  String.ofList ((encodeBytes bytes).map fun b => Char.ofNat b.toNat)

/-! ## Reading -/

/-- Why a text is not the base64 text of any byte string. Offsets count bytes. -/
inductive Problem
  | invalidByte (byte : UInt8) (offset : Nat)
  | sixBitRemainder
  | padding
  | lastSymbol (byte : UInt8) (offset : Nat)
deriving DecidableEq

/-- The wording of a problem. -/
def Problem.message : Problem → String
  | .invalidByte byte offset => s!"Invalid byte {byte}, offset {offset}."
  | .sixBitRemainder => "Encoded text cannot have a 6-bit remainder."
  | .padding => "Invalid padding"
  | .lastSymbol byte offset => s!"Invalid last symbol {byte}, offset {offset}."

/-- The values of symbols that stand from `offset` on, where no padding is allowed. -/
def readSymbols (offset : Nat) : Bytes → Except Problem (List Nat)
  | [] => .ok []
  | b :: rest =>
    match value? b with
    | none => .error (.invalidByte b offset)
    | some v =>
      match readSymbols (offset + 1) rest with
      | .ok values => .ok (v :: values)
      | .error problem => .error problem

/-- The values and the count of padding bytes of the last piece, which begins at `start`.
`index` is the place of the next byte in it and `firstPad` that of the first padding byte.
Padding may not begin a group, nor follow its first symbol. -/
def readLast (start : Nat) : Nat → Option Nat → Bytes → Except Problem (List Nat × Nat)
  | _, _, [] => .ok ([], 0)
  | index, firstPad, b :: rest =>
    if b = padByte then
      if index % 4 < 2 then .error (.invalidByte padByte (start + firstPad.getD index))
      else
        match readLast start (index + 1) (some (firstPad.getD index)) rest with
        | .ok (values, pads) => .ok (values, pads + 1)
        | .error problem => .error problem
    else
      match firstPad, value? b with
      | some pad, _ => .error (.invalidByte padByte (start + pad))
      | none, none => .error (.invalidByte b (start + index))
      | none, some v =>
        match readLast start (index + 1) none rest with
        | .ok (values, pads) => .ok (v :: values, pads)
        | .error problem => .error problem

/-- The bytes that a list of values stands for. Bits beyond the last whole byte are left
out. -/
def joinValues : List Nat → Bytes
  | a :: b :: c :: d :: rest =>
    UInt8.ofNat (a * 4 + b / 16) :: UInt8.ofNat (b % 16 * 16 + c / 4) ::
      UInt8.ofNat (c % 4 * 64 + d) :: joinValues rest
  | [a, b, c] => [UInt8.ofNat (a * 4 + b / 16), UInt8.ofNat (b % 16 * 16 + c / 4)]
  | [a, b] => [UInt8.ofNat (a * 4 + b / 16)]
  | _ => []

/-- The bits of the last of `count` values that no byte needs. -/
def unusedBits (count value : Nat) : Nat :=
  if count % 4 = 2 then value % 16 else if count % 4 = 3 then value % 4 else 0

/-- Checks the last piece as a whole and joins all values. `text` holds the last piece alone,
which begins at `start`. -/
def finish (start : Nat) (text : Bytes) (leading last : List Nat) (pads : Nat) :
    Except Problem Bytes :=
  if (pads + last.length) % 4 ≠ 0 then .error .padding
  else if unusedBits last.length (last.getLastD 0) ≠ 0 then
    .error (.lastSymbol (text.getD (last.length - 1) 0) (start + last.length - 1))
  else .ok (joinValues (leading ++ last))

/-- The bytes that a text without blanks around it stands for. -/
def decodeBytes (text : Bytes) : Except Problem Bytes :=
  -- one symbol alone in the last group cannot hold a byte
  if text.length % 4 = 1 then
    let last := text.getLastD 0
    if last = padByte || (value? last).isSome then .error .sixBitRemainder
    else .error (.invalidByte last (text.length - 1))
  else
    -- the last piece has one to eight symbols, so it starts before the last symbol
    let start := (text.length - 1) / 8 * 8
    match readSymbols 0 (text.take start) with
    | .error problem => .error problem
    | .ok leading =>
      match readLast start 0 none (text.drop start) with
      | .error problem => .error problem
      | .ok (last, pads) => finish start (text.drop start) leading last pads

/-- The bytes that a base64 text stands for. -/
def decode (text : String) : Except Problem Bytes := decodeBytes (Text.utf8 (Text.trim text))

example : encode [77, 97] = "TWE=" ∧ (decode " TWE=\n").toOption = some [77, 97] ∧
    (decode "TWF=").toOption = none := by decide +kernel

end AgileSeal.Base64
