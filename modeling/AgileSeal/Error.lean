import AgileSeal.Text.Quoted

set_option autoImplicit false

/-! # Errors

Primitives fail with a `PrimitiveError`, everything above them with an `Error`. Each kind has
one wording (`message`) and a form for diagnostics that shows its name and its detail in
quotes (`inspect`). The two decryption errors carry no detail: a wrong passphrase, a bundle
that was tampered with and a bundle of another suite look alike to the caller.
-/

namespace AgileSeal

/-- A name followed by a quoted detail in parentheses. -/
def inspectWith (name detail : String) : String := name ++ "(" ++ Text.quoted detail ++ ")"

/-! ## Primitives -/

/-- Why a primitive refused its input. -/
inductive PrimitiveError
  | keyGeneration (detail : String)
  | encapsulation (detail : String)
  | decapsulation (detail : String)
  | encryption (detail : String)
  | decryption (detail : String)
  | keyDerivation (detail : String)
  | invalidInput (detail : String)
  | serialization (detail : String)
  | deserialization (detail : String)
deriving DecidableEq

namespace PrimitiveError

/-- The name of the kind of error. -/
def name : PrimitiveError → String
  | .keyGeneration _ => "KeyGenerationError"
  | .encapsulation _ => "KemEncapsulationError"
  | .decapsulation _ => "KemDecapsulationError"
  | .encryption _ => "AeadEncryptionError"
  | .decryption _ => "AeadDecryptionError"
  | .keyDerivation _ => "KeyDerivationError"
  | .invalidInput _ => "InvalidInputError"
  | .serialization _ => "SerializationError"
  | .deserialization _ => "DeserializationError"

/-- What went wrong in the particular case. -/
def detail : PrimitiveError → String
  | .keyGeneration d | .encapsulation d | .decapsulation d | .encryption d | .decryption d
  | .keyDerivation d | .invalidInput d | .serialization d | .deserialization d => d

/-- The wording of an error. -/
def message : PrimitiveError → String
  | .keyGeneration d => "Failed to generate keys: " ++ d
  | .encapsulation d => "KEM encapsulation failed: " ++ d
  | .decapsulation d => "KEM decapsulation failed: " ++ d
  | .encryption d => "AEAD encryption failed: " ++ d
  | .decryption d => "AEAD decryption failed: " ++ d
  | .keyDerivation d => "Key derivation failed: " ++ d
  | .invalidInput d => "Invalid input: " ++ d
  | .serialization d => "Serialization error: " ++ d
  | .deserialization d => "Deserialization error: " ++ d

/-- An error as diagnostics show it. -/
def inspect (e : PrimitiveError) : String := inspectWith e.name e.detail

end PrimitiveError

/-- The ways in which the lattice primitive itself can fail. -/
inductive KyberFailure
  | invalidInput
  | decapsulation
  | randomBytes

/-- A failure of the lattice primitive is reported as a failed decapsulation. -/
def KyberFailure.toError : KyberFailure → PrimitiveError
  | .invalidInput => .decapsulation "InvalidInput"
  | .decapsulation => .decapsulation "Decapsulation"
  | .randomBytes => .decapsulation "RandomBytesGeneration"

/-! ## Everything else -/

/-- Why an operation failed. -/
inductive Error
  | invalidArgument (detail : String)
  | configuration (detail : String)
  | algorithmNotFound (id : String)
  | keyManagement (detail : String)
  | encryptionFailed (detail : String)
  | malformedBundle (detail : String)
  | decryption
  | decryptionFailed
deriving DecidableEq

namespace Error

/-- The name of the kind of error. -/
def name : Error → String
  | .invalidArgument _ => "InvalidArgument"
  | .configuration _ => "ConfigurationError"
  | .algorithmNotFound _ => "AlgorithmNotFound"
  | .keyManagement _ => "KeyManagementError"
  | .encryptionFailed _ => "EncryptionFailed"
  | .malformedBundle _ => "MalformedBundle"
  | .decryption => "DecryptionError"
  | .decryptionFailed => "DecryptionFailed"

/-- The wording of an error. -/
def message : Error → String
  | .invalidArgument d => "Invalid argument: " ++ d
  | .configuration d => "Configuration error: " ++ d
  | .algorithmNotFound id => "Algorithm not found: " ++ id
  | .keyManagement d => "key material error: " ++ d
  | .encryptionFailed d => "encryption could not complete: " ++ d
  | .malformedBundle d => "Malformed bundle: " ++ d
  | .decryption => "unable to decrypt"
  | .decryptionFailed => "unable to decrypt: no configured scheme succeeded"

/-- An error as diagnostics show it. -/
def inspect : Error → String
  | .invalidArgument d => inspectWith "InvalidArgument" d
  | .configuration d => inspectWith "ConfigurationError" d
  | .algorithmNotFound id => inspectWith "AlgorithmNotFound" id
  | .keyManagement d => inspectWith "KeyManagementError" d
  | .encryptionFailed d => inspectWith "EncryptionFailed" d
  | .malformedBundle d => inspectWith "MalformedBundle" d
  | .decryption => "DecryptionError"
  | .decryptionFailed => "DecryptionFailed"

/-- Errors after which the program cannot start: the active suite is not usable. -/
def isStartupFatal : Error → Bool
  | .configuration _ | .algorithmNotFound _ => true
  | _ => false

end Error

end AgileSeal
