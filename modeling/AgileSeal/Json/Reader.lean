import AgileSeal.IdMap
import AgileSeal.Json.Skip

set_option autoImplicit false

/-! # Reading typed values

A reader takes one value of a known form from the start of a document. Values are read as
they come, so the first problem in the text is the one that is reported, be it a fault of
the text or a value of the wrong form.

A record is an object with known fields in any order, or a list of the values of its fields
in their fixed order. The form of a record is described once (`Shape`) and serves both
spellings.

What stands in a bracket is bounded by the text behind it: each item takes a character at
least, so when the bound is used up nothing is left to read.
-/

namespace AgileSeal.Json

/-- Takes a value from the start of a document. -/
abbrev Reader (α : Type) := StateT (List Char) (Except Problem) α

namespace Reader

/-! ## Building blocks -/

/-- Refuses the document. -/
def refuse {α : Type} (f : Fault) : Reader α := throw (.fault f)

/-- The result of reading a token, as that of a reader. -/
def ofScan {α : Type} : Except Fault α → Except Problem α
  | .ok a => .ok a
  | .error f => .error (.fault f)

/-- Refuses the value that comes next, which is not of the wanted form. -/
def refuseValue {α : Type} (expected : String) (cs : List Char) : Except Problem α :=
  match found cs with
  | .ok what => .error (.wrongType what expected)
  | .error f => .error (.fault f)

/-- What comes next after white space, or nothing at the end of the text. Nothing is
taken but the white space. -/
def peek : Reader (Option Char) := fun cs => .ok ((skipSpace cs).head?, skipSpace cs)

/-- Passes over one character. -/
def advance : Reader Unit := fun cs => .ok ((), cs.drop 1)

/-! ## Single values -/

/-- A string. -/
def text : Reader String := fun cs =>
  match skipSpace cs with
  | [] => .error (.fault .endOfValue)
  | '"' :: rest => ofScan (scanString rest)
  | cs => refuseValue "a string" cs

/-- A whole number below `bound`; `expected` names the kind of number. -/
def natural (bound : Nat) (expected : String) : Reader Nat := fun cs =>
  match skipSpace cs with
  | [] => .error (.fault .endOfValue)
  | c :: rest =>
    if c = '-' ∨ c.isDigit = true then
      match (if c = '-' then scanNumber true rest else scanNumber false (c :: rest)) with
      | .error f => .error (.fault f)
      | .ok (.whole n, rest) =>
        if 0 ≤ n ∧ n < bound then .ok (n.toNat, rest) else .error (.outOfRange n expected)
      | .ok (number, _) => .error (.wrongType (.number number) expected)
    else refuseValue expected (c :: rest)

/-- A value or `null`. -/
def optional {α : Type} (value : Reader α) : Reader (Option α) := fun cs =>
  match skipSpace cs with
  | 'n' :: rest =>
    match scanLiteral ['u', 'l', 'l'] rest with
    | .ok rest => .ok (none, rest)
    | .error f => .error (.fault f)
  | cs => (some <$> value : Reader (Option α)) cs

/-- Any value, which is passed over. -/
def ignored : Reader Unit := fun cs =>
  match skipValue cs with
  | .ok rest => .ok ((), rest)
  | .error f => .error (.fault f)

/-! ## Lists -/

/-- Whether a list goes on. Before every item but the first a comma is taken; the closing
bracket is left. -/
def nextItem (first : Bool) : Reader Bool := do
  match ← peek with
  | none => refuse .endOfList
  | some ']' => return false
  | some c =>
    if first then return true
    else if c = ',' then
      advance
      match ← peek with
      | none => refuse .endOfValue
      | some ']' => refuse .trailingComma
      | some _ => return true
    else refuse .expectedListEnd

/-- The closing bracket of a list. -/
def endList : Reader Unit := do
  match ← peek with
  | none => refuse .endOfList
  | some ']' => advance
  | some ',' =>
    advance
    match ← peek with
    | some ']' => refuse .trailingComma
    | _ => refuse .trailingCharacters
  | some _ => refuse .trailingCharacters

/-- The items of a list up to the closing bracket. `read` holds those that have been read, the
last one first. -/
def items {α : Type} (item : Reader α) : (bound : List Char) → (read : List α) →
    Reader (List α)
  | [], _ => refuse .endOfList
  | _ :: bound, read => do
    if ← nextItem read.isEmpty then
      let a ← item
      items item bound (a :: read)
    else return read.reverse

/-- A list of values of one form. -/
def list {α : Type} (item : Reader α) : Reader (List α) := fun cs =>
  match skipSpace cs with
  | [] => .error (.fault .endOfValue)
  | '[' :: rest => (do
      let values ← items item rest []
      endList
      return values : Reader (List α)) rest
  | cs => refuseValue "a sequence" cs

/-! ## Objects -/

/-- The key of the next field of an object, or nothing at the closing bracket, which is
left. -/
def nextKey (first : Bool) : Reader (Option String) := do
  match ← peek with
  | none => refuse .endOfObject
  | some '\x7d' => return none
  | some c =>
    if first then
      if c = '"' then some <$> text else refuse .keyNotString
    else if c = ',' then
      advance
      match ← peek with
      | none => refuse .endOfValue
      | some '"' => some <$> text
      | some '\x7d' => refuse .trailingComma
      | some _ => refuse .keyNotString
    else refuse .expectedObjectEnd

/-- The colon behind a key. -/
def colon : Reader Unit := do
  match ← peek with
  | none => refuse .endOfObject
  | some ':' => advance
  | some _ => refuse .expectedColon

/-! ## Records -/

/-- A field of a record: how its value is read and stored. -/
structure Field (σ : Type) where
  name : String
  required : Bool
  store : σ → Reader σ

/-- The form of a record. -/
structure Shape (σ : Type) where
  /-- What a reader of the record expects. -/
  expected : String
  /-- The fields in their fixed order. -/
  fields : List (Field σ)
  /-- Whether unknown fields are refused. -/
  closed : Bool
  /-- The record before any field has been read. -/
  start : σ

variable {σ : Type}

/-- The complaint about a list that ends too early. -/
def Shape.tooShort (shape : Shape σ) (length : Nat) : Problem :=
  .tooShort length
    (shape.expected ++ " with " ++ toString shape.fields.length ++ " elements")

/-- The values of fields in their fixed order. `index` is the place of the next field. -/
def Shape.inOrder (shape : Shape σ) : List (Field σ) → Nat → σ → Reader σ
  | [], _, record => return record
  | field :: fields, index, record => do
    if ← nextItem (index == 0) then
      let record ← field.store record
      shape.inOrder fields (index + 1) record
    -- fields that may be missing keep what the empty record has for them
    else if field.required then throw (shape.tooShort index)
    else shape.inOrder fields (index + 1) record

/-- Checks that no required field is missing. -/
def Shape.checkComplete (shape : Shape σ) (seen : List String) : Reader Unit :=
  match shape.fields.find? fun field => field.required && !seen.contains field.name with
  | some field => throw (.missingField field.name)
  | none => return ()

/-- Reads the value of the field named by a key. -/
def Shape.field (shape : Shape σ) (seen : List String) (record : σ) (key : String) :
    Reader σ := do
  match shape.fields.find? fun field => field.name = key with
  | some field =>
    -- a repeated field is noticed before its value is looked at
    if seen.contains key then throw (.duplicateField key)
    colon
    field.store record
  | none =>
    if shape.closed then throw (.unknownField key (shape.fields.map (·.name)))
    colon
    ignored
    return record

/-- The fields of an object up to the closing bracket, which is taken. -/
def Shape.byName (shape : Shape σ) : (bound : List Char) → (seen : List String) → σ → Reader σ
  | [], _, _ => refuse .endOfObject
  | _ :: bound, seen, record => do
    match ← nextKey seen.isEmpty with
    | none =>
      shape.checkComplete seen
      advance
      return record
    | some key =>
      let record ← shape.field seen record key
      shape.byName bound (key :: seen) record

/-- A record. -/
def record (shape : Shape σ) : Reader σ := fun cs =>
  match skipSpace cs with
  | [] => .error (.fault .endOfValue)
  | '[' :: rest => (do
      let record ← shape.inOrder shape.fields 0 shape.start
      endList
      return record : Reader σ) rest
  | '\x7b' :: rest => shape.byName rest [] shape.start rest
  | cs => refuseValue shape.expected cs

/-! ## Tables -/

/-- The entries of a table up to the closing bracket, which is taken. `kind` says what the keys
are. -/
def entries {α : Type} (kind : String) (value : Reader α) :
    (bound : List Char) → IdMap α → Reader (IdMap α)
  | [], _ => refuse .endOfObject
  | _ :: bound, table => do
    match ← nextKey table.entries.isEmpty with
    | none =>
      advance
      return table
    | some key =>
      colon
      let a ← value
      -- a repeated id is noticed only after its value has been read
      if table.contains key then throw (.duplicateId kind key)
      entries kind value bound (table.insert key a)

/-- A table: an object whose keys are ids, each of them once. -/
def table {α : Type} (expected kind : String) (value : Reader α) : Reader (IdMap α) := fun cs =>
  match skipSpace cs with
  | [] => .error (.fault .endOfValue)
  | '\x7b' :: rest => entries kind value rest IdMap.empty rest
  | cs => refuseValue expected cs

/-! ## Documents -/

/-- The value of a whole document. -/
def document {α : Type} (value : Reader α) (s : String) : Except Problem α :=
  match value s.toList with
  | .error problem => .error problem
  | .ok (a, rest) => if skipSpace rest = [] then .ok a else .error (.fault .trailingCharacters)

end Reader

end AgileSeal.Json
