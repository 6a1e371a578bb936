import AgileSeal.Engine
import AgileSeal.Proofs.Cipher.Symmetric

set_option autoImplicit false

/-! # What a decryption asks of a bundle

Decryption gives a text exactly when the label may be used, bundle and keys have the form of the
suite, the private keys find a key for the cipher (`Engine.keyOf`) and the tag of the bundle is
the one that the cipher computes with it (`Engine.decrypt_eq_ok_iff`). In every other case it
fails with the one error that the caller learns (`Engine.decrypt_eq_error_iff`).
-/

namespace AgileSeal

/-! ## The form of a bundle -/

namespace Bundle

theorem defect?_eq_none_iff {b : Bundle} {suite : SuiteDefinition} :
    b.defect? suite = none ↔ ephemeralDefect? suite b.ephemeralKey = none ∧
      fieldDefect? suite b.toBody = none ∧ saltDefect? suite.mode b.passphraseSalt = none ∧
      costDefect? suite b.stretchCost = none := by
  rw [defect?, Option.or_eq_none_iff, Option.or_eq_none_iff, Option.or_eq_none_iff]

theorem ephemeralDefect?_eq_none_iff {suite : SuiteDefinition} {key : Option Bytes} :
    ephemeralDefect? suite key = none ↔
      ∃ point, key = some point ∧ point.length = suite.classicalKem.kem.encapsulatedLength := by
  cases key with
  | none => simp [ephemeralDefect?]
  | some point => simp [ephemeralDefect?]

/-- Every suite needs an encapsulated key, a nonce and a tag of its lengths, a ciphertext and, if
there is a salt for the key of the cipher, one that is not empty. -/
theorem fieldDefect?_eq_none_iff {suite : SuiteDefinition} {b : Body} :
    fieldDefect? suite b = none ↔
      b.encapsulatedKey.length = suite.pqcKem.kem.encapsulatedLength ∧
      b.nonce.length = suite.symmetric.nonceLength ∧ b.tag.length = suite.symmetric.tagLength ∧
      b.ciphertext ≠ [] ∧ b.kdfSalt ≠ some [] := by
  rw [fieldDefect?]
  simp only [ite_some_eq_none_iff, ne_eq, Decidable.not_not, and_true]

/-- A suite with a passphrase needs a salt that is not empty; one with a key file needs none. -/
theorem saltDefect?_eq_none_iff {mode : KeyMode} {salt : Option Bytes} :
    saltDefect? mode salt = none ↔
      mode = .keyFile ∨ ∃ bytes, salt = some bytes ∧ bytes ≠ [] := by
  cases mode with
  | keyFile => simp [saltDefect?]
  | passphrase =>
      cases salt with
      | none => simp [saltDefect?]
      | some bytes => simp [saltDefect?]

/-- A suite with a passphrase accepts costs of its own function within the limits; one with a key
file accepts none. -/
theorem costDefect?_eq_none_iff {suite : SuiteDefinition} {cost : StretchCost} :
    costDefect? suite (some cost) = none ↔ suite.mode = .passphrase ∧
      cost.kdf = suite.passphraseKdf ∧ cost.withinLimits = true := by
  rw [costDefect?]
  cases suite.mode with
  | keyFile => simp
  | passphrase =>
      by_cases hkdf : cost.kdf = suite.passphraseKdf
      · simp [hkdf]
      · simp [hkdf]

end Bundle

/-! ## Decryption -/

namespace Engine

/-- The key of the cipher that private keys find for a bundle. -/
def keyOf (e : Engine) (b : Bundle) (keys : KeyMaterial) : Except PrimitiveError Bytes := do
  let (classicalPrivate, pqcPrivate) ← privateKeys keys
  let ephemeral ← ephemeralKey b
  let classicalSecret ← e.suite.classicalKem.kem.decapsulate classicalPrivate ephemeral
  let pqcSecret ← e.suite.pqcKem.kem.decapsulate pqcPrivate b.encapsulatedKey
  e.cipherKey classicalSecret pqcSecret b.kdfSalt

/-- All values on the way to the key of the cipher. -/
theorem keyOf_eq_ok_iff {e : Engine} {b : Bundle} {keys : KeyMaterial} {key : Bytes} :
    e.keyOf b keys = .ok key ↔ ∃ secrets ephemeral classicalSecret pqcSecret,
      privateKeys keys = .ok secrets ∧ ephemeralKey b = .ok ephemeral ∧
      e.suite.classicalKem.kem.decapsulate secrets.1 ephemeral = .ok classicalSecret ∧
      e.suite.pqcKem.kem.decapsulate secrets.2 b.encapsulatedKey = .ok pqcSecret ∧
      e.cipherKey classicalSecret pqcSecret b.kdfSalt = .ok key := by
  rw [keyOf, bind_eq_ok_iff]
  constructor
  · rintro ⟨secrets, hsecrets, h⟩
    obtain ⟨ephemeral, hephemeral, h⟩ := bind_eq_ok_iff.mp h
    obtain ⟨classicalSecret, hclassical, h⟩ := bind_eq_ok_iff.mp h
    obtain ⟨pqcSecret, hpqc, h⟩ := bind_eq_ok_iff.mp h
    exact ⟨secrets, ephemeral, classicalSecret, pqcSecret, hsecrets, hephemeral, hclassical, hpqc,
      h⟩
  · rintro ⟨secrets, ephemeral, classicalSecret, pqcSecret, hsecrets, hephemeral, hclassical, hpqc,
      h⟩
    refine ⟨secrets, hsecrets, ?_⟩
    refine bind_eq_ok_iff.mpr ⟨ephemeral, hephemeral, ?_⟩
    refine bind_eq_ok_iff.mpr ⟨classicalSecret, hclassical, ?_⟩
    exact bind_eq_ok_iff.mpr ⟨pqcSecret, hpqc, h⟩

theorem length_of_keyOf {e : Engine} {b : Bundle} {keys : KeyMaterial} {key : Bytes}
    (h : e.keyOf b keys = .ok key) : key.length = e.suite.symmetric.keyLength := by
  obtain ⟨_, _, _, _, -, -, -, -, hkey⟩ := keyOf_eq_ok_iff.mp h
  exact e.suite.kdf.length_of_derive _ _ _ _ _ hkey

/-- **What a decryption asks of a bundle.** -/
theorem reveal_eq_ok_iff {e : Engine} {b : Bundle} {keys : KeyMaterial} {label : LabelMatch}
    {plaintext : Bytes} : e.reveal b keys label = .ok plaintext ↔
      ¬(label = .exact ∧ b.suiteId ≠ e.suite.id) ∧ b.defect? e.suite = none ∧
        keys.problem? e.suite = none ∧ ∃ key associated, e.keyOf b keys = .ok key ∧
          b.associatedData = .ok associated ∧
          e.suite.symmetric.decrypt key b.nonce b.ciphertext b.tag associated = .ok plaintext := by
  have hlabel : e.checkLabel label b = .ok () ↔ ¬(label = .exact ∧ b.suiteId ≠ e.suite.id) := by
    rw [checkLabel]
    split
    · rename_i hbad
      constructor
      · intro h
        cases h
      · intro h
        exact absurd hbad h
    · rename_i hgood
      exact iff_of_true rfl hgood
  constructor
  · intro h
    obtain ⟨hmatch, h⟩ := check_bind_eq_ok_iff.mp h
    obtain ⟨hform, h⟩ := check_bind_eq_ok_iff.mp h
    obtain ⟨hkeys, h⟩ := check_bind_eq_ok_iff.mp h
    obtain ⟨secrets, hsecrets, h⟩ := bind_eq_ok_iff.mp h
    obtain ⟨ephemeral, hephemeral, h⟩ := bind_eq_ok_iff.mp h
    obtain ⟨classicalSecret, hclassical, h⟩ := bind_eq_ok_iff.mp h
    obtain ⟨pqcSecret, hpqc, h⟩ := bind_eq_ok_iff.mp h
    obtain ⟨key, hkey, h⟩ := bind_eq_ok_iff.mp h
    obtain ⟨associated, hassociated, h⟩ := bind_eq_ok_iff.mp h
    exact ⟨hlabel.mp hmatch, (Bundle.checkFor_eq_ok_iff _ _).mp (mapError_eq_ok_iff.mp hform),
      (KeyMaterial.checkFor_eq_ok_iff _ _).mp (mapError_eq_ok_iff.mp hkeys), key, associated,
      keyOf_eq_ok_iff.mpr ⟨secrets, ephemeral, classicalSecret, pqcSecret, hsecrets, hephemeral,
        hclassical, hpqc, hkey⟩, mapError_eq_ok_iff.mp hassociated, h⟩
  · rintro ⟨hmatch, hform, hkeys, key, associated, hkey, hassociated, h⟩
    obtain ⟨secrets, ephemeral, classicalSecret, pqcSecret, hsecrets, hephemeral, hclassical, hpqc,
      hkey⟩ := keyOf_eq_ok_iff.mp hkey
    refine check_bind_eq_ok_iff.mpr ⟨hlabel.mpr hmatch, ?_⟩
    refine check_bind_eq_ok_iff.mpr
      ⟨mapError_eq_ok_iff.mpr ((Bundle.checkFor_eq_ok_iff _ _).mpr hform), ?_⟩
    refine check_bind_eq_ok_iff.mpr
      ⟨mapError_eq_ok_iff.mpr ((KeyMaterial.checkFor_eq_ok_iff _ _).mpr hkeys), ?_⟩
    refine bind_eq_ok_iff.mpr ⟨secrets, hsecrets, ?_⟩
    refine bind_eq_ok_iff.mpr ⟨ephemeral, hephemeral, ?_⟩
    refine bind_eq_ok_iff.mpr ⟨classicalSecret, hclassical, ?_⟩
    refine bind_eq_ok_iff.mpr ⟨pqcSecret, hpqc, ?_⟩
    refine bind_eq_ok_iff.mpr ⟨key, hkey, ?_⟩
    exact bind_eq_ok_iff.mpr ⟨associated, mapError_eq_ok_iff.mpr hassociated, h⟩

/-- The caller learns the text or the one error. -/
theorem value_decrypt (e : Engine) (b : Bundle) (keys : KeyMaterial) (label : LabelMatch) :
    (e.decrypt b keys label).value = (e.reveal b keys label).mapError fun _ => .decryption := by
  rw [decrypt]
  cases e.reveal b keys label <;> rfl

theorem decrypt_eq_ok_iff {e : Engine} {b : Bundle} {keys : KeyMaterial} {label : LabelMatch}
    {plaintext : Bytes} : (e.decrypt b keys label).value = .ok plaintext ↔
      e.reveal b keys label = .ok plaintext := by
  rw [value_decrypt, mapError_eq_ok_iff]

theorem decrypt_eq_error_iff {e : Engine} {b : Bundle} {keys : KeyMaterial} {label : LabelMatch} :
    (e.decrypt b keys label).value = .error .decryption ↔
      ∀ plaintext, e.reveal b keys label ≠ .ok plaintext := by
  rw [value_decrypt]
  cases e.reveal b keys label with
  | ok plaintext =>
      constructor
      · intro h
        cases h
      · intro h
        exact absurd rfl (h plaintext)
  | error reason =>
      constructor
      · intro _ plaintext h
        cases h
      · intro _
        rfl

/-- A decrypted text is as long as the ciphertext, which is not empty. -/
theorem length_of_reveal {e : Engine} {b : Bundle} {keys : KeyMaterial} {label : LabelMatch}
    {plaintext : Bytes} (h : e.reveal b keys label = .ok plaintext) :
    plaintext ≠ [] ∧ plaintext.length = b.ciphertext.length := by
  obtain ⟨-, hform, -, key, associated, -, -, hopen⟩ := reveal_eq_ok_iff.mp h
  obtain ⟨-, hfields, -⟩ := Bundle.defect?_eq_none_iff.mp hform
  obtain ⟨-, -, -, hciphertext, -⟩ := Bundle.fieldDefect?_eq_none_iff.mp hfields
  obtain ⟨-, -, hcipher⟩ := SymmetricCipher.decrypt_eq_ok_iff.mp hopen
  have hlength := DetachedCipher.length_of_decrypt hcipher
  refine ⟨?_, hlength⟩
  intro hnil
  rw [hnil, List.length_nil] at hlength
  exact hciphertext (List.eq_nil_of_length_eq_zero hlength.symm)

end Engine

end AgileSeal
