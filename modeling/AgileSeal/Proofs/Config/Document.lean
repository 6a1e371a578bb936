import AgileSeal.Config.Document
import AgileSeal.Proofs.Json.Collections
import AgileSeal.Proofs.Json.Numbers

set_option autoImplicit false

/-! # Configurations are read back

The document of a configuration is read back as the configuration (`Config.parse_toJson`), whatever
characters are in its ids and names, whatever its suites leave out and whatever its numbers are. A
configuration that passes its checks passes them again when it is read
(`Config.ofJson_toJson`).
-/

namespace AgileSeal

open Json Json.Reader

/-! ## Suites -/

namespace SuiteNames

/-- The names that every suite has. -/
def requiredFields (s : SuiteNames) : List (String × Printed) :=
  [("classical_kem_algorithm", .text s.classicalKem), ("pqc_kem_algorithm", .text s.pqcKem),
    ("symmetric_algorithm", .text s.symmetric), ("kdf_algorithm", .text s.kdf),
    ("key_management_mode", .text s.mode)]

theorem takes_requiredFields (s : SuiteNames) (depth : Nat) :
    shape.Takes [] blank (s.requiredFields.map fun field => (field.1, field.2 depth))
      ["key_management_mode", "kdf_algorithm", "symmetric_algorithm", "pqc_kem_algorithm",
        "classical_kem_algorithm"]
      { s with passphraseKdf := none } := by
  show shape.Takes [] blank [("classical_kem_algorithm", Printed.quotedChars s.classicalKem),
    ("pqc_kem_algorithm", Printed.quotedChars s.pqcKem),
    ("symmetric_algorithm", Printed.quotedChars s.symmetric),
    ("kdf_algorithm", Printed.quotedChars s.kdf),
    ("key_management_mode", Printed.quotedChars s.mode)] _ _
  refine .cons rfl (by decide) ((reads_text s.classicalKem).map _) ?_
  refine .cons rfl (by decide) ((reads_text s.pqcKem).map _) ?_
  refine .cons rfl (by decide) ((reads_text s.symmetric).map _) ?_
  refine .cons rfl (by decide) ((reads_text s.kdf).map _) ?_
  refine .cons rfl (by decide) ((reads_text s.mode).map _) ?_
  exact .nil _ _

/-- A way of stretching that is named is taken, and one that is not named is not missed. -/
theorem takes_passphraseKdf {seen : List String} (fresh : "passphrase_kdf" ∉ seen)
    {s : SuiteNames} (hs : s.passphraseKdf = none) (name : Option String) (depth : Nat) :
    shape.Takes seen s
      (((name.map fun k => ("passphrase_kdf", Printed.text k)).toList).map
        fun field => (field.1, field.2 depth))
      (if name.isSome then "passphrase_kdf" :: seen else seen) { s with passphraseKdf := name } :=
  Shape.takes_optional_text (fun (s : SuiteNames) name => { s with passphraseKdf := name }) rfl
    fresh (by rw [← hs]) name depth

/-- The description of a suite is read back. -/
theorem reads_printed (s : SuiteNames) (depth : Nat) :
    Reads (record shape) (s.printed depth) s := by
  have hrequired := s.takes_requiredFields (depth + 1)
  have hall := hrequired.append
    (takes_passphraseKdf (by decide) rfl s.passphraseKdf (depth + 1))
  rw [← List.map_append] at hall
  refine reads_record hall ?_
  cases s.passphraseKdf <;> rfl

end SuiteNames

theorem SuiteTable.reads_printed (t : SuiteTable) (depth : Nat) :
    Reads SuiteTable.read (SuiteTable.printed t depth) t :=
  reads_table (fun e _ => e.2.reads_printed (depth + 1)) _ _

/-! ## Parameters -/

namespace Params

theorem reads_word (n : UInt32) : Reads readWord (Nat.toDigits 10 n.toNat) n := by
  intro space rest hspace hrest
  have hlt : n.toNat < UInt32.size := n.toNat_lt
  have hread := reads_natural hlt (Nat.lt_trans hlt (by decide)) "u32" space rest hspace hrest
  refine (map_ok hread).trans ?_
  rw [UInt32.ofNat_toNat]

theorem reads_length (n : UInt64) : Reads readLength (Nat.toDigits 10 n.toNat) n := by
  intro space rest hspace hrest
  have hlt : n.toNat < UInt64.size := n.toNat_lt
  have hread := reads_natural hlt hlt "usize" space rest hspace hrest
  refine (map_ok hread).trans ?_
  rw [UInt64.ofNat_toNat]

theorem takes_printed (p : Params) :
    shape.Takes [] default [("argon2_memory_kib", Nat.toDigits 10 p.argon2Memory.toNat),
        ("argon2_iterations", Nat.toDigits 10 p.argon2Iterations.toNat),
        ("argon2_parallelism", Nat.toDigits 10 p.argon2Parallelism.toNat),
        ("pbkdf2_iterations", Nat.toDigits 10 p.pbkdf2Iterations.toNat),
        ("salt_length", Nat.toDigits 10 p.saltLength.toNat)]
      ["salt_length", "pbkdf2_iterations", "argon2_parallelism", "argon2_iterations",
        "argon2_memory_kib"] p := by
  refine .cons rfl (by decide) ((reads_word p.argon2Memory).map _) ?_
  refine .cons rfl (by decide) ((reads_word p.argon2Iterations).map _) ?_
  refine .cons rfl (by decide) ((reads_word p.argon2Parallelism).map _) ?_
  refine .cons rfl (by decide) ((reads_word p.pbkdf2Iterations).map _) ?_
  refine .cons rfl (by decide) ((reads_length p.saltLength).map _) ?_
  exact .nil _ _

/-- Parameters are read back. -/
theorem reads_printed (p : Params) (depth : Nat) : Reads (record shape) (p.printed depth) p :=
  reads_record p.takes_printed rfl

end Params

/-! ## Configurations -/

namespace Config

/-- The order of attempts is read back. -/
theorem reads_order (order : List String) (depth : Nat) :
    Reads (list text) (Printed.list (order.map .text) depth) order :=
  reads_list fun id _ => ⟨reads_text id, startsItem_quotedChars id⟩

theorem takes_printed (c : Config) :
    shape.Takes [] (.new "" [] .default)
      [("active_encryption_suite_id", Printed.quotedChars c.active),
        ("decryption_attempt_order", Printed.list (c.order.map .text) 1),
        ("suites", SuiteTable.printed c.suites 1), ("params", c.params.printed 1)]
      ["params", "suites", "decryption_attempt_order", "active_encryption_suite_id"] c := by
  refine .cons rfl (by decide) ((reads_text c.active).map _) ?_
  refine .cons rfl (by decide) ((reads_order c.order 1).map _) ?_
  refine .cons rfl (by decide) ((SuiteTable.reads_printed c.suites 1).map _) ?_
  refine .cons rfl (by decide) ((c.params.reads_printed 1).map _) ?_
  exact .nil _ _

/-- **The document of a configuration is read back**, be the configuration sensible or not. -/
theorem parse_toJson (c : Config) : parse c.toJson = .ok c := by
  have hread : document (record shape) c.toJson = .ok c :=
    document_of_reads (reads_record c.takes_printed rfl)
  rw [parse, hread]
  rfl

/-- **A configuration that passes its checks is read back** from its document and passes them
again. -/
theorem ofJson_toJson (c : Config) (h : c.validate = .ok ()) : ofJson c.toJson = .ok c := by
  rw [ofJson, parse_toJson]
  show (c.validate >>= fun _ => pure c) = .ok c
  rw [h]
  rfl

/-- A configuration with ids that have to be escaped, with a suite that names a way of stretching
and one that does not, and with the longest salts. -/
def extreme : Config where
  active := "\"\x01\""
  order := ["naïve 😀", "C:\\seal", "naïve 😀"]
  suites := ⟨[("\"\x01\"", ⟨"X25519", "Kyber768", "AES-256-GCM", "HKDF-SHA256", "passphrase", none⟩),
    ("naïve 😀", ⟨"", "\t", "/", "\n", "é", some ""⟩)], by decide⟩
  params := { Params.default with saltLength := 0xffffffffffffffff }

theorem ofJson_toJson_extreme :
    extreme.validate = .ok () ∧ ofJson extreme.toJson = .ok extreme := by
  have hvalid : extreme.validate = .ok () := by rfl
  exact ⟨hvalid, ofJson_toJson extreme hvalid⟩

end Config

end AgileSeal
