import AgileSeal.Config.Basic
import AgileSeal.Json.Printer
import AgileSeal.Json.Reader

set_option autoImplicit false

/-! # Configurations as JSON documents

A configuration is kept as a JSON document. Unknown fields are ignored except in the
description of a suite, where a misspelt name must not go unnoticed. The order of attempts
and the parameters may be left out; a parameter that is left out has its default.
-/

namespace AgileSeal

open Json

/-! ## Fields -/

namespace SuiteNames

/-- A suite of which no name is known yet. -/
def blank : SuiteNames := ⟨"", "", "", "", "", none⟩

/-- The description of a suite in a document. -/
def shape : Reader.Shape SuiteNames where
  expected := "struct SuiteConfig"
  closed := true
  start := blank
  fields := [
    ⟨"classical_kem_algorithm", true, fun s => do return { s with classicalKem := ← Reader.text }⟩,
    ⟨"pqc_kem_algorithm", true, fun s => do return { s with pqcKem := ← Reader.text }⟩,
    ⟨"symmetric_algorithm", true, fun s => do return { s with symmetric := ← Reader.text }⟩,
    ⟨"kdf_algorithm", true, fun s => do return { s with kdf := ← Reader.text }⟩,
    ⟨"key_management_mode", true, fun s => do return { s with mode := ← Reader.text }⟩,
    ⟨"passphrase_kdf", false, fun s => do
      return { s with passphraseKdf := ← Reader.optional Reader.text }⟩]

/-- The printed description of a suite. -/
def printed (s : SuiteNames) : Printed :=
  .object ([("classical_kem_algorithm", .text s.classicalKem),
    ("pqc_kem_algorithm", .text s.pqcKem), ("symmetric_algorithm", .text s.symmetric),
    ("kdf_algorithm", .text s.kdf), ("key_management_mode", .text s.mode)] ++
    (s.passphraseKdf.map fun name => ("passphrase_kdf", Printed.text name)).toList)

end SuiteNames

namespace Params

/-- A 32-bit number. -/
def readWord : Reader UInt32 := UInt32.ofNat <$> Reader.natural UInt32.size "u32"

/-- A length in 64 bits. -/
def readLength : Reader UInt64 := UInt64.ofNat <$> Reader.natural UInt64.size "usize"

/-- The parameters in a document. -/
def shape : Reader.Shape Params where
  expected := "struct CryptoParams"
  closed := false
  start := default
  fields := [
    ⟨"argon2_memory_kib", false, fun p => do return { p with argon2Memory := ← readWord }⟩,
    ⟨"argon2_iterations", false, fun p => do return { p with argon2Iterations := ← readWord }⟩,
    ⟨"argon2_parallelism", false, fun p => do return { p with argon2Parallelism := ← readWord }⟩,
    ⟨"pbkdf2_iterations", false, fun p => do return { p with pbkdf2Iterations := ← readWord }⟩,
    ⟨"salt_length", false, fun p => do return { p with saltLength := ← readLength }⟩]

/-- The printed parameters. -/
def printed (p : Params) : Printed :=
  .object [("argon2_memory_kib", .natural p.argon2Memory.toNat),
    ("argon2_iterations", .natural p.argon2Iterations.toNat),
    ("argon2_parallelism", .natural p.argon2Parallelism.toNat),
    ("pbkdf2_iterations", .natural p.pbkdf2Iterations.toNat),
    ("salt_length", .natural p.saltLength.toNat)]

end Params

namespace SuiteTable

/-- The table of suites in a document. -/
def read : Reader SuiteTable :=
  Reader.table "a map of suite id to suite definition" "suite id" (Reader.record SuiteNames.shape)

/-- The printed table of suites. -/
def printed (t : SuiteTable) : Printed :=
  .object (t.entries.map fun e => (e.1, e.2.printed))

end SuiteTable

namespace Config

/-- The configuration in a document. -/
def shape : Reader.Shape Config where
  expected := "struct AgilityConfig"
  closed := false
  start := .new "" [] .default
  fields := [
    ⟨"active_encryption_suite_id", true, fun c => do return { c with active := ← Reader.text }⟩,
    ⟨"decryption_attempt_order", false, fun c => do
      return { c with order := ← Reader.list Reader.text }⟩,
    ⟨"suites", true, fun c => do return { c with suites := ← SuiteTable.read }⟩,
    ⟨"params", false, fun c => do return { c with params := ← Reader.record Params.shape }⟩]

/-! ## Documents -/

/-- The document of a configuration. -/
def toJson (c : Config) : String :=
  Printed.document (.object [("active_encryption_suite_id", .text c.active),
    ("decryption_attempt_order", .list (c.order.map .text)),
    ("suites", SuiteTable.printed c.suites), ("params", c.params.printed)])

/-- Reads a configuration without checking it. -/
def parse (document : String) : Except Error Config :=
  (Reader.document (Reader.record shape) document).mapError fun problem =>
    .configuration problem.message

/-- Reads a configuration and checks it. -/
def ofJson (document : String) : Except Error Config := do
  let c ← parse document
  c.validate
  return c

end Config

end AgileSeal
