import AgileSeal.Base64
import AgileSeal.FileSystem
import AgileSeal.Json.Printer
import AgileSeal.Json.Reader
import AgileSeal.Keys.Material

set_option autoImplicit false

/-! # Key files

Keys that do not come from a passphrase are kept in a file: a JSON document with the format,
the id of the suite and the keys in base64. The private keys may be missing; such a file is
enough for encryption. A file is only accepted for the suite it names, and with keys of the
lengths that suite needs.
-/

namespace AgileSeal

open Json

/-- An operation on files that may fail. What it has written before it fails stays written. -/
abbrev Filing (α : Type) := ExceptT Error (StateM FileSystem) α

/-- The answer of an operation on files, and the files that it leaves behind. -/
def Filing.on {α : Type} (m : Filing α) (files : FileSystem) : Except Error α × FileSystem :=
  m.run.run files

/-- The content of a key file. -/
structure KeyFile where
  format : String
  suiteId : String
  classicalPublicKey : String
  pqcPublicKey : String
  classicalPrivateKey : Option String
  pqcPrivateKey : Option String

namespace KeyFile

/-- The name of the format. -/
def formatName : String := "agility-core/keyfile/v1"

/-! ## Documents -/

/-- A file of which nothing is known yet. -/
def blank : KeyFile := ⟨"", "", "", "", none, none⟩

/-- A key file as a document. -/
def shape : Reader.Shape KeyFile where
  expected := "struct KeyFile"
  closed := false
  start := blank
  fields := [
    ⟨"format", true, fun f => do return { f with format := ← Reader.text }⟩,
    ⟨"suite_id", true, fun f => do return { f with suiteId := ← Reader.text }⟩,
    ⟨"classical_public_key", true, fun f => do
      return { f with classicalPublicKey := ← Reader.text }⟩,
    ⟨"pqc_public_key", true, fun f => do return { f with pqcPublicKey := ← Reader.text }⟩,
    ⟨"classical_private_key", false, fun f => do
      return { f with classicalPrivateKey := ← Reader.optional Reader.text }⟩,
    ⟨"pqc_private_key", false, fun f => do
      return { f with pqcPrivateKey := ← Reader.optional Reader.text }⟩]

/-- The document of a key file. -/
def toJson (f : KeyFile) : String :=
  Printed.document (.object ([("format", .text f.format), ("suite_id", .text f.suiteId),
    ("classical_public_key", .text f.classicalPublicKey),
    ("pqc_public_key", .text f.pqcPublicKey)] ++
    (f.classicalPrivateKey.map fun k => ("classical_private_key", Printed.text k)).toList ++
    (f.pqcPrivateKey.map fun k => ("pqc_private_key", Printed.text k)).toList))

/-! ## Keys -/

/-- The file of a suite for key material. The salt of a passphrase has no place in it. -/
def ofMaterial (suite : SuiteDefinition) (k : KeyMaterial) : KeyFile where
  format := formatName
  suiteId := suite.id
  classicalPublicKey := Base64.encode k.classicalPublicKey
  pqcPublicKey := Base64.encode k.pqcPublicKey
  classicalPrivateKey := k.classicalPrivateKey.map Base64.encode
  pqcPrivateKey := k.pqcPrivateKey.map Base64.encode

/-- The bytes of the field `field`. -/
def readKey (field text : String) : Except Error Bytes :=
  (Base64.decode text).mapError fun problem =>
    .keyManagement (field ++ " is not valid base64: " ++ problem.message)

/-- The bytes of the field `field`, if it is there. -/
def readOptionalKey (field : String) : Option String → Except Error (Option Bytes)
  | none => .ok none
  | some text => (readKey field text).map some

/-- The complaint about a file of another format. -/
def foreignFormat (format : String) : Error :=
  .keyManagement ("unsupported key file format `" ++ format ++ "`")

/-- The complaint about a file of another suite. -/
def foreignSuite (fileSuite suiteId : String) : Error :=
  .keyManagement ("key file belongs to suite `" ++ fileSuite ++ "`, not `" ++ suiteId ++ "`")

/-- The keys in a file of a suite. -/
def material (f : KeyFile) (suite : SuiteDefinition) : Except Error KeyMaterial := do
  if f.format ≠ formatName then throw (foreignFormat f.format)
  if f.suiteId ≠ suite.id then throw (foreignSuite f.suiteId suite.id)
  let classicalPublicKey ← readKey "classical_public_key" f.classicalPublicKey
  let pqcPublicKey ← readKey "pqc_public_key" f.pqcPublicKey
  let classicalPrivateKey ← readOptionalKey "classical_private_key" f.classicalPrivateKey
  let pqcPrivateKey ← readOptionalKey "pqc_private_key" f.pqcPrivateKey
  let k : KeyMaterial :=
    ⟨classicalPublicKey, pqcPublicKey, classicalPrivateKey, pqcPrivateKey, none⟩
  k.checkFor suite
  return k

/-! ## Files -/

/-- The complaint about a file that cannot be read. -/
def unreadable (path : String) (e : FileError) : Error :=
  .keyManagement ("cannot read key file " ++ path ++ ": " ++ e.message)

/-- The complaint about a document that is no key file. -/
def illFormed (path : String) (problem : Json.Problem) : Error :=
  .keyManagement ("invalid key file " ++ path ++ ": " ++ problem.message)

/-- The complaint about a file that cannot be written. -/
def unwritable (path : String) (e : FileError) : Error :=
  .keyManagement ("cannot write key file " ++ path ++ ": " ++ e.message)

/-- The keys of a suite in the file at a path. -/
def load (files : FileSystem) (path : String) (suite : SuiteDefinition) :
    Except Error KeyMaterial := do
  let document ← (files.readText path).mapError (unreadable path)
  let file ← (Reader.document (Reader.record shape) document).mapError (illFormed path)
  file.material suite

/-- Writes the keys of a suite to a path. -/
def store (path : String) (suite : SuiteDefinition) (k : KeyMaterial) : Filing Unit := do
  k.checkFor suite
  let files ← get
  let written ← (files.write path (Text.utf8 (ofMaterial suite k).toJson)).mapError
    (unwritable path)
  set written

/-- The file system after the keys of a suite have been written to a path. -/
def write (files : FileSystem) (path : String) (suite : SuiteDefinition) (k : KeyMaterial) :
    Except Error FileSystem :=
  let (result, files) := (store path suite k).on files
  result.map fun _ => files

end KeyFile

end AgileSeal
