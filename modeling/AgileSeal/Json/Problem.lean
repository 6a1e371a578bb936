import AgileSeal.Decimal.Shortest
import AgileSeal.Text.Quoted

set_option autoImplicit false

/-! # Problems of JSON documents

A document is read from left to right and the first problem is reported. It is either a
fault in the text itself or a value that does not have the form that is wanted. The wording
says what is wrong and not where: a suffix " at line L column C" is left out.
-/

namespace AgileSeal.Json

/-- A place where the text is no JSON. -/
inductive Fault
  | endOfValue | endOfList | endOfObject | endOfString
  | expectedColon | expectedListEnd | expectedObjectEnd | expectedLiteral | expectedValue
  | invalidEscape | invalidNumber | numberOutOfRange | controlCharacter | keyNotString
  | loneSurrogate | endOfEscape | trailingComma | trailingCharacters
deriving DecidableEq

/-- The wording of a fault. -/
def Fault.message : Fault → String
  | .endOfValue => "EOF while parsing a value"
  | .endOfList => "EOF while parsing a list"
  | .endOfObject => "EOF while parsing an object"
  | .endOfString => "EOF while parsing a string"
  | .expectedColon => "expected `:`"
  | .expectedListEnd => "expected `,` or `]`"
  | .expectedObjectEnd => "expected `,` or `\x7d`"
  | .expectedLiteral => "expected ident"
  | .expectedValue => "expected value"
  | .invalidEscape => "invalid escape"
  | .invalidNumber => "invalid number"
  | .numberOutOfRange => "number out of range"
  | .controlCharacter => "control character (\\u0000-\\u001F) found while parsing a string"
  | .keyNotString => "key must be a string"
  | .loneSurrogate => "lone leading surrogate in hex escape"
  | .endOfEscape => "unexpected end of hex escape"
  | .trailingComma => "trailing comma"
  | .trailingCharacters => "trailing characters"

/-- A number: whole where the text is whole and 64 bits hold it, and a double otherwise. -/
inductive Number
  | whole (n : Int)
  | double (negative : Bool) (magnitude : Binary64)

/-- What stands in a document where something else was wanted. -/
inductive Found
  | null
  | flag (b : Bool)
  | number (n : Number)
  | text (s : String)
  | list
  | object

/-- The wording of what was found. -/
def Found.message : Found → String
  | .null => "null"
  | .flag b => "boolean `" ++ (if b then "true" else "false") ++ "`"
  | .number (.whole n) => "integer `" ++ toString n ++ "`"
  | .number (.double negative x) => "floating point `" ++ x.render negative ++ "`"
  | .text s => "string " ++ Text.quoted s
  | .list => "sequence"
  | .object => "map"

/-- Why a document was refused. -/
inductive Problem
  | fault (f : Fault)
  | wrongType (found : Found) (expected : String)
  | outOfRange (n : Int) (expected : String)
  | tooShort (length : Nat) (expected : String)
  | missingField (name : String)
  | duplicateField (name : String)
  | unknownField (name : String) (known : List String)
  | duplicateId (kind id : String)

/-- The wording of a problem. -/
def Problem.message : Problem → String
  | .fault f => f.message
  | .wrongType found expected => "invalid type: " ++ found.message ++ ", expected " ++ expected
  | .outOfRange n expected =>
    "invalid value: integer `" ++ toString n ++ "`, expected " ++ expected
  | .tooShort length expected =>
    "invalid length " ++ toString length ++ ", expected " ++ expected
  | .missingField name => "missing field `" ++ name ++ "`"
  | .duplicateField name => "duplicate field `" ++ name ++ "`"
  | .unknownField name known =>
    "unknown field `" ++ name ++ "`, expected one of " ++
      String.intercalate ", " (known.map fun k => "`" ++ k ++ "`")
  | .duplicateId kind id => "duplicate " ++ kind ++ " `" ++ id ++ "`"

end AgileSeal.Json
