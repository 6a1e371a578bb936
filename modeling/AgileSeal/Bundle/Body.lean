import AgileSeal.Bytes
import AgileSeal.Stretch.Cost

set_option autoImplicit false

/-! # The body of a bundle

Behind its header a bundle holds everything needed to decrypt it with the right keys. The
fields follow each other in a fixed order. A byte string is written as its length in eight
bytes and its bytes, an optional field as a byte 0 or 1 and the field if there is one, and a
stretching cost as the number of its function and its costs in four bytes each. All numbers
have their least significant byte first.

Each `read` function takes what the `encode` function of the same type has written from the
start of a byte string and leaves the rest.
-/

namespace AgileSeal

/-- The fields of a bundle behind its header. -/
structure Body where
  ephemeralKey : Option Bytes
  encapsulatedKey : Bytes
  nonce : Bytes
  ciphertext : Bytes
  tag : Bytes
  passphraseSalt : Option Bytes
  stretchCost : Option StretchCost
  kdfSalt : Option Bytes
deriving DecidableEq

namespace Body

/-! ## Writing -/

/-- A byte string with its length before it. -/
def encodeBytes (bytes : Bytes) : Bytes := Bytes.ofNatLE 8 bytes.length ++ bytes

/-- An optional field. -/
def encodeOption {α : Type} (encodeField : α → Bytes) : Option α → Bytes
  | none => [0]
  | some a => 1 :: encodeField a

/-- A 32-bit number. -/
def encodeWord (n : UInt32) : Bytes := Bytes.ofNatLE 4 n.toNat

/-- A stretching cost. -/
def encodeCost : StretchCost → Bytes
  | .argon2id memory iterations parallelism =>
    encodeWord 0 ++ encodeWord memory ++ encodeWord iterations ++ encodeWord parallelism
  | .pbkdf2Sha256 iterations => encodeWord 1 ++ encodeWord iterations

/-- The bytes of a body. -/
def encode (b : Body) : Bytes :=
  encodeOption encodeBytes b.ephemeralKey ++ encodeBytes b.encapsulatedKey ++
    encodeBytes b.nonce ++ encodeBytes b.ciphertext ++ encodeBytes b.tag ++
    encodeOption encodeBytes b.passphraseSalt ++ encodeOption encodeCost b.stretchCost ++
    encodeOption encodeBytes b.kdfSalt

/-- The most bytes of a body that is written, `2 ^ 32`. -/
def maxLength : Nat := 0x100000000

/-! ## Reading -/

/-- Why a body cannot be read. -/
inductive Problem
  | endOfInput
  | longField
  | optionTag (tag : UInt8)
  | stretchFunction (number : Nat)
  | bytesRemain
deriving DecidableEq

/-- The wording of a problem. -/
def Problem.message : Problem → String
  | .endOfInput => "io error: unexpected end of file"
  | .longField => "io error: "
  | .optionTag tag => "tag for enum is not valid, found " ++ toString tag
  | .stretchFunction number =>
    "invalid value: integer `" ++ toString number ++ "`, expected variant index 0 <= i < 2"
  | .bytesRemain => "Slice had bytes remaining after deserialization"

/-- Takes something from the start of a byte string. -/
abbrev Reader (α : Type) := StateT Bytes (Except Problem) α

/-- A number of `count` bytes. -/
def readNumber (count : Nat) : Reader Nat := fun bytes =>
  if bytes.length < count then .error .endOfInput
  else .ok (Bytes.toNatLE (bytes.take count), bytes.drop count)

/-- So many bytes. -/
def readExactly (count : Nat) : Reader Bytes := fun bytes =>
  if bytes.length < count then .error .longField
  else .ok (bytes.take count, bytes.drop count)

/-- A byte string behind its length. -/
def readBytes : Reader Bytes := do
  let length ← readNumber 8
  readExactly length

/-- The byte before an optional field. -/
def readTag : Reader UInt8
  | [] => .error .endOfInput
  | tag :: rest => .ok (tag, rest)

/-- An optional field. -/
def readOption {α : Type} (readField : Reader α) : Reader (Option α) := do
  let tag ← readTag
  if tag = 0 then return none
  else if tag = 1 then some <$> readField
  else throw (.optionTag tag)

/-- A 32-bit number. -/
def readWord : Reader UInt32 := UInt32.ofNat <$> readNumber 4

/-- A stretching cost. -/
def readCost : Reader StretchCost := do
  let number ← readNumber 4
  if number = 0 then
    let memory ← readWord
    let iterations ← readWord
    let parallelism ← readWord
    return .argon2id memory iterations parallelism
  else if number = 1 then .pbkdf2Sha256 <$> readWord
  else throw (.stretchFunction number)

/-- All fields of a body. -/
def readFields : Reader Body := do
  let ephemeralKey ← readOption readBytes
  let encapsulatedKey ← readBytes
  let nonce ← readBytes
  let ciphertext ← readBytes
  let tag ← readBytes
  let passphraseSalt ← readOption readBytes
  let stretchCost ← readOption readCost
  let kdfSalt ← readOption readBytes
  return ⟨ephemeralKey, encapsulatedKey, nonce, ciphertext, tag, passphraseSalt, stretchCost,
    kdfSalt⟩

/-- The body that a byte string holds, with nothing behind it. -/
def decode (bytes : Bytes) : Except Problem Body :=
  match readFields bytes with
  | .ok (body, []) => .ok body
  | .ok (_, _ :: _) => .error .bytesRemain
  | .error problem => .error problem

end Body

end AgileSeal
