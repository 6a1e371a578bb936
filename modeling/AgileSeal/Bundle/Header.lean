import AgileSeal.Error
import AgileSeal.Suite.Definition

set_option autoImplicit false

/-! # The header of a bundle

A bundle starts with four bytes that identify the format, one byte for its version, the
length of the suite id in two bytes, most significant first, and the id in UTF-8. The header
can be read without the rest, so a bundle can be routed to its suite before anything else of
it is looked at, and its exact bytes are the associated data of the encryption.
-/

namespace AgileSeal

/-- The header: the identifier of the format, its version and the id of the suite. -/
structure Header where
  identifier : Vector UInt8 4
  version : UInt8
  suiteId : String
deriving DecidableEq

namespace Header

/-- The identifier of this format, `AGLC`. -/
def formatIdentifier : Vector UInt8 4 := #v[0x41, 0x47, 0x4c, 0x43]

/-- The version of this format. -/
def formatVersion : UInt8 := 1

/-- The count of bytes before the suite id. -/
def fixedLength : Nat := 7

/-- The header of a new bundle of a suite. -/
def ofSuite (suiteId : String) : Header := ⟨formatIdentifier, formatVersion, suiteId⟩

/-! ## Writing -/

/-- The complaint about an id that does not fit. -/
def idLengthProblem : String := "suite id must be 1..=" ++ toString maxSuiteIdLength ++ " bytes"

/-- The bytes of a header, whose id takes between 1 and 255 bytes. -/
def encode (h : Header) : Except Error Bytes :=
  let id := Text.utf8 h.suiteId
  if id.length = 0 ∨ maxSuiteIdLength < id.length then .error (.invalidArgument idLengthProblem)
  else .ok (h.identifier.toList ++ [h.version] ++ Bytes.ofNatBE 2 id.length ++ id)

/-! ## Reading -/

/-- Why a header cannot be read. -/
inductive Problem
  | truncatedHeader
  | unknownIdentifier
  | unsupportedVersion (version : UInt8)
  | idLength
  | truncatedId
  | idNotText
deriving DecidableEq

/-- The wording of a problem. -/
def Problem.message : Problem → String
  | .truncatedHeader => "truncated header"
  | .unknownIdentifier => "unknown format identifier"
  | .unsupportedVersion version => "unsupported format version " ++ toString version
  | .idLength => "invalid suite id length"
  | .truncatedId => "truncated suite id"
  | .idNotText => "suite id is not UTF-8"

/-- Reads the id behind the fixed part: the header and the bytes after it. -/
def readId (length : Nat) (rest : Bytes) : Except Problem (Header × Bytes) :=
  if length = 0 ∨ maxSuiteIdLength < length then .error .idLength
  else if rest.length < length then .error .truncatedId
  else
    match Text.ofUtf8? (rest.take length) with
    | some id => .ok (ofSuite id, rest.drop length)
    | none => .error .idNotText

/-- Reads the header at the start of a byte string: the header and the bytes after it. -/
def read : Bytes → Except Problem (Header × Bytes)
  | a :: b :: c :: d :: version :: high :: low :: rest =>
    if [a, b, c, d] ≠ formatIdentifier.toList then .error .unknownIdentifier
    else if version ≠ formatVersion then .error (.unsupportedVersion version)
    else readId (Bytes.toNatBE [high, low]) rest
  | _ => .error .truncatedHeader

/-- The header at the start of a byte string and how many bytes it takes. -/
def peek (bytes : Bytes) : Except Error (Header × Nat) :=
  match read bytes with
  | .ok (header, rest) => .ok (header, bytes.length - rest.length)
  | .error problem => .error (.malformedBundle problem.message)

end Header

end AgileSeal
