import AgileSeal.Text.Blank

set_option autoImplicit false

/-! # Algorithms

Six closed sets of algorithms, one for each role in a suite. Every algorithm has a canonical
name, and a set may have further names for an algorithm. A name is read without regard to
blanks around it and to the case of its letters, and the canonical name of an algorithm
always reads as that algorithm (`ofName?_name`).
-/

namespace AgileSeal

/-- The classical key encapsulation. -/
inductive ClassicalKem
  | x25519
deriving DecidableEq

/-- The key encapsulation that withstands quantum computers. -/
inductive PqcKem
  | kyber768
deriving DecidableEq

/-- The cipher for the data. -/
inductive SymmetricCipher
  | chacha20Poly1305
  | xchacha20Poly1305
  | aes256Gcm
deriving DecidableEq

/-- The derivation of keys from shared secrets. -/
inductive KeyDerivation
  | hkdfSha256
  | hkdfSha512
deriving DecidableEq

/-- The stretching of a passphrase. -/
inductive PassphraseKdf
  | argon2id
  | pbkdf2Sha256
deriving DecidableEq

/-- Where the keys of a suite come from. -/
inductive KeyMode
  | passphrase
  | keyFile
deriving DecidableEq

/-! ## Names -/

/-- Why a text names no algorithm. -/
inductive NameProblem
  | missing (role : String)
  | unsupported (role name : String)
deriving DecidableEq

/-- The wording of a problem. -/
def NameProblem.message : NameProblem → String
  | .missing role => role ++ " is missing"
  | .unsupported role name => "unsupported " ++ role ++ " `" ++ name ++ "`"

/-- The algorithm that a list of names gives a trimmed text. -/
def findName {α : Type} (names : List (String × α)) (trimmed : String) : Option α :=
  (names.find? fun entry => Text.sameName entry.1 trimmed).map (·.2)

/-- A set of algorithms with names. -/
class Algorithm (α : Type) where
  /-- The field of a suite that names the algorithm. -/
  role : String
  /-- The canonical name. -/
  name : α → String
  /-- All names, in the order in which they are tried. -/
  names : List (String × α)
  findName_name : ∀ a, findName names (name a) = some a
  trim_name : ∀ a, Text.trim (name a) = name a
  name_ne_empty : ∀ a, name a ≠ ""

namespace Algorithm

instance : Algorithm ClassicalKem where
  role := "classical_kem_algorithm"
  name | .x25519 => "X25519"
  names := [("X25519", .x25519)]
  findName_name := by rintro ⟨⟩; rfl
  trim_name := by rintro ⟨⟩; rfl
  name_ne_empty := by rintro ⟨⟩; decide

instance : Algorithm PqcKem where
  role := "pqc_kem_algorithm"
  name | .kyber768 => "Kyber768"
  names := [("Kyber768", .kyber768), ("ML-KEM-768", .kyber768)]
  findName_name := by rintro ⟨⟩; rfl
  trim_name := by rintro ⟨⟩; rfl
  name_ne_empty := by rintro ⟨⟩; decide

instance : Algorithm SymmetricCipher where
  role := "symmetric_algorithm"
  name
    | .chacha20Poly1305 => "ChaCha20-Poly1305"
    | .xchacha20Poly1305 => "XChaCha20-Poly1305"
    | .aes256Gcm => "AES-256-GCM"
  names := [("ChaCha20-Poly1305", .chacha20Poly1305), ("XChaCha20-Poly1305", .xchacha20Poly1305),
    ("AES-256-GCM", .aes256Gcm)]
  findName_name := by rintro ⟨⟩ <;> rfl
  trim_name := by rintro ⟨⟩ <;> rfl
  name_ne_empty := by rintro ⟨⟩ <;> decide

instance : Algorithm KeyDerivation where
  role := "kdf_algorithm"
  name
    | .hkdfSha256 => "HKDF-SHA256"
    | .hkdfSha512 => "HKDF-SHA512"
  names := [("HKDF-SHA256", .hkdfSha256), ("HKDF-SHA512", .hkdfSha512)]
  findName_name := by rintro ⟨⟩ <;> rfl
  trim_name := by rintro ⟨⟩ <;> rfl
  name_ne_empty := by rintro ⟨⟩ <;> decide

instance : Algorithm PassphraseKdf where
  role := "passphrase_kdf"
  name
    | .argon2id => "Argon2id"
    | .pbkdf2Sha256 => "PBKDF2-SHA256"
  names := [("Argon2id", .argon2id), ("PBKDF2-SHA256", .pbkdf2Sha256)]
  findName_name := by rintro ⟨⟩ <;> rfl
  trim_name := by rintro ⟨⟩ <;> rfl
  name_ne_empty := by rintro ⟨⟩ <;> decide

instance : Algorithm KeyMode where
  role := "key_management_mode"
  name
    | .passphrase => "passphrase"
    | .keyFile => "external-key-file"
  names := [("passphrase", .passphrase), ("external-key-file", .keyFile)]
  findName_name := by rintro ⟨⟩ <;> rfl
  trim_name := by rintro ⟨⟩ <;> rfl
  name_ne_empty := by rintro ⟨⟩ <;> decide

/-- The algorithm a text names. -/
def ofName? {α : Type} [Algorithm α] (text : String) : Except NameProblem α :=
  let trimmed := Text.trim text
  if trimmed = "" then .error (.missing (role α))
  else
    match findName names trimmed with
    | some algorithm => .ok algorithm
    | none => .error (.unsupported (role α) trimmed)

/-- The canonical name of an algorithm reads as the algorithm. -/
theorem ofName?_name {α : Type} [Algorithm α] (a : α) : ofName? (name a) = .ok a := by
  simp [ofName?, trim_name, name_ne_empty, findName_name]

end Algorithm

end AgileSeal
