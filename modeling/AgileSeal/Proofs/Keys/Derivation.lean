import AgileSeal.Keys.Derivation
import AgileSeal.Proofs.Kem.Answers

set_option autoImplicit false

/-! # Keys from seeds are whole

A seed that is expanded from a stretched passphrase is as long as a key encapsulation needs it
(`length_of_expandSeed`), and so are random seeds. Key pairs of two such seeds fit their suite
(`KeyMaterial.whole_ofKeyPairs`): the keys of a passphrase, whatever it was stretched to
(`KeyMaterial.exists_ofStretched`), and the keys that a suite generates
(`KeyMaterial.whole_generate`). Keys of these lengths are what the key encapsulations ask for, and
what they make of them has its lengths again (`KeyMaterial.lengths_exact`).
-/

namespace AgileSeal

/-! ## Seeds -/

theorem KeyDerivation.derive_of_hkdf {k : KeyDerivation} {material context key : Bytes}
    {salt : Option Bytes} {length : Nat}
    (h : k.hash.hkdf material (salt.getD []) context length = some key) :
    k.derive material salt context length = .ok key := by
  rw [derive, h]

/-- Every hash function is good for 255 bytes. -/
theorem KeyDerivation.exists_derive (k : KeyDerivation) (material : Bytes) (salt : Option Bytes)
    (context : Bytes) {length : Nat} (h : length ≤ 255) :
    ∃ key, k.derive material salt context length = .ok key := by
  have hpos := k.digestLength_pos
  have hlong : length ≤ 255 * k.hash.digestLength := by omega
  rw [← k.hash.hkdf_isSome material (salt.getD []) context, Option.isSome_iff_exists] at hlong
  obtain ⟨key, hkey⟩ := hlong
  exact ⟨key, derive_of_hkdf hkey⟩

theorem exists_expandSeed (suite : SuiteDefinition) (stretched salt : Bytes) (algorithm : String) :
    ∃ seed, expandSeed suite stretched salt algorithm = .ok seed := by
  have hshort : seedLength ≤ 255 := by decide
  obtain ⟨seed, hseed⟩ := suite.kdf.exists_derive stretched (some salt)
    (Text.utf8 (keyPairContext ++ "/" ++ algorithm)) hshort
  exact ⟨seed, mapError_eq_ok_iff.mpr hseed⟩

theorem length_of_expandSeed {suite : SuiteDefinition} {stretched salt seed : Bytes}
    {algorithm : String} (h : expandSeed suite stretched salt algorithm = .ok seed) :
    seed.length = seedLength :=
  suite.kdf.length_of_derive _ _ _ _ _ (mapError_eq_ok_iff.mp h)

namespace KeyMaterial

/-! ## Keys of the right lengths -/

theorem keyProblem?_eq_none_iff (suite : SuiteDefinition) (what : String) (expected : Nat)
    (key : Bytes) : keyProblem? suite what expected key = none ↔ key.length = expected := by
  rw [keyProblem?]
  split <;> simp_all

/-- Key material fits a suite when its keys, as far as they are there, have the lengths that
the suite needs. -/
theorem problem?_eq_none_iff (keys : KeyMaterial) (suite : SuiteDefinition) :
    keys.problem? suite = none ↔
      keys.classicalPublicKey.length = suite.classicalKem.kem.publicKeyLength ∧
      keys.pqcPublicKey.length = suite.pqcKem.kem.publicKeyLength ∧
      (∀ key ∈ keys.classicalPrivateKey, key.length = suite.classicalKem.kem.privateKeyLength) ∧
      ∀ key ∈ keys.pqcPrivateKey, key.length = suite.pqcKem.kem.privateKeyLength := by
  rw [problem?]
  simp only [Option.or_eq_none_iff, Option.bind_eq_none_iff, keyProblem?_eq_none_iff,
    Option.mem_def]

/-- Both private keys are there, with the salt that belongs to them, and all keys fit the suite. -/
structure Whole (keys : KeyMaterial) (suite : SuiteDefinition) (salt : Option Bytes) : Prop where
  hasPrivateKeys : keys.hasPrivateKeys = true
  passphraseSalt : keys.passphraseSalt = salt
  fits : keys.checkFor suite = .ok ()

/-- The key pairs of two seeds are whole. -/
theorem whole_ofKeyPairs (suite : SuiteDefinition) {classical pqc : Bytes}
    (hclassical : classical.length = seedLength) (hpqc : pqc.length = seedLength)
    (salt : Option Bytes) :
    (ofKeyPairs (suite.classicalKem.kem.keyPair classical) (suite.pqcKem.kem.keyPair pqc)
      salt).Whole suite salt := by
  refine ⟨rfl, rfl, (checkFor_eq_ok_iff _ _).mpr ((problem?_eq_none_iff _ _).mpr ⟨?_, ?_, ?_, ?_⟩)⟩
  · exact suite.classicalKem.kem.length_publicKey classical hclassical
  · exact suite.pqcKem.kem.length_publicKey pqc hpqc
  · intro key hkey
    cases hkey
    exact suite.classicalKem.kem.length_privateKey classical hclassical
  · intro key hkey
    cases hkey
    exact suite.pqcKem.kem.length_privateKey pqc hpqc

theorem Whole.problem?_eq_none {keys : KeyMaterial} {suite : SuiteDefinition}
    {salt : Option Bytes} (h : keys.Whole suite salt) : keys.problem? suite = none :=
  (checkFor_eq_ok_iff _ _).mp h.fits

/-! ## Keys of a passphrase -/

/-- A stretched passphrase gives a key pair for each seed that is expanded from it. -/
theorem ofStretched_eq_ok_iff {suite : SuiteDefinition} {stretched salt : Bytes}
    {keys : KeyMaterial} : ofStretched suite stretched salt = .ok keys ↔
      ∃ classical pqc, expandSeed suite stretched salt (Algorithm.name suite.classicalKem)
          = .ok classical ∧
        expandSeed suite stretched salt (Algorithm.name suite.pqcKem) = .ok pqc ∧
        keys = ofKeyPairs (suite.classicalKem.kem.keyPair classical)
          (suite.pqcKem.kem.keyPair pqc) (some salt) := by
  rw [ofStretched, bind_eq_ok_iff]
  constructor
  · rintro ⟨classical, hclassical, h⟩
    obtain ⟨pqc, hpqc, h⟩ := bind_eq_ok_iff.mp h
    exact ⟨classical, pqc, hclassical, hpqc, (Except.ok.inj h).symm⟩
  · rintro ⟨classical, pqc, hclassical, hpqc, rfl⟩
    exact ⟨classical, hclassical, bind_eq_ok_iff.mpr ⟨pqc, hpqc, rfl⟩⟩

/-- Any stretched key gives key pairs. -/
theorem exists_ofStretched (suite : SuiteDefinition) (stretched salt : Bytes) :
    ∃ keys, ofStretched suite stretched salt = .ok keys := by
  obtain ⟨classical, hclassical⟩ :=
    exists_expandSeed suite stretched salt (Algorithm.name suite.classicalKem)
  obtain ⟨pqc, hpqc⟩ := exists_expandSeed suite stretched salt (Algorithm.name suite.pqcKem)
  exact ⟨_, ofStretched_eq_ok_iff.mpr ⟨classical, pqc, hclassical, hpqc, rfl⟩⟩

/-- Keys that a suite derives are whole and carry the salt. -/
theorem whole_ofStretched {suite : SuiteDefinition} {stretched salt : Bytes} {keys : KeyMaterial}
    (h : ofStretched suite stretched salt = .ok keys) : keys.Whole suite (some salt) := by
  obtain ⟨classical, pqc, hclassical, hpqc, rfl⟩ := ofStretched_eq_ok_iff.mp h
  exact whole_ofKeyPairs suite (length_of_expandSeed hclassical) (length_of_expandSeed hpqc) _

theorem passphraseSalt_ofStretched {suite : SuiteDefinition} {stretched salt : Bytes}
    {keys : KeyMaterial} (h : ofStretched suite stretched salt = .ok keys) :
    keys.passphraseSalt = some salt :=
  (whole_ofStretched h).passphraseSalt

theorem problem?_ofStretched {suite : SuiteDefinition} {stretched salt : Bytes}
    {keys : KeyMaterial} (h : ofStretched suite stretched salt = .ok keys) :
    keys.problem? suite = none :=
  (whole_ofStretched h).problem?_eq_none

/-! ## Fresh keys -/

/-- Keys that a suite generates are whole and belong to no passphrase. -/
theorem whole_generate (suite : SuiteDefinition) (s : RandomStream) :
    (generate suite s).1.Whole suite none :=
  whole_ofKeyPairs suite (s.length_segment _ _) ((s.draw seedLength).2.length_segment _ _) none

/-! ## All lengths together -/

/-- **Keys, encapsulations and secrets have their lengths.** Whatever a passphrase was stretched to
and whatever the salt and the random bytes are, every suite derives and generates whole keys. Both
key encapsulations turn down inputs of other lengths as invalid and deliver 32-byte secrets for all
others, the lattice scheme always and Diffie-Hellman unless the secret would be one of zeros. -/
theorem lengths_exact :
    (∀ (suite : SuiteDefinition) (stretched salt : Bytes), ∃ keys,
      ofStretched suite stretched salt = .ok keys ∧ keys.Whole suite (some salt)) ∧
    (∀ (suite : SuiteDefinition) (s : RandomStream), (generate suite s).1.Whole suite none) ∧
    (∀ (publicKey : Bytes) (s : RandomStream),
      Kem.Answer (publicKey.length = 32)
        (Kem.objectionTo (X25519.multiply (s.segment s.position seedLength) publicKey)
          .encapsulation)
        (fun result => result.1.length = 32 ∧ result.2.length = 32)
        (Kem.x25519.encapsulate publicKey s).1 ∧
      Kem.Answer (publicKey.length = 1184) none
        (fun result => result.1.length = 1088 ∧ result.2.length = 32)
        (Kem.kyber768.encapsulate publicKey s).1) ∧
    ∀ privateKey encapsulated : Bytes,
      Kem.Answer (privateKey.length = 32 ∧ encapsulated.length = 32)
        (Kem.objectionTo (X25519.multiply privateKey encapsulated) .decapsulation)
        (fun secret => secret.length = 32) (Kem.x25519.decapsulate privateKey encapsulated) ∧
      Kem.Answer (privateKey.length = 2400 ∧ encapsulated.length = 1088) none
        (fun secret => secret.length = 32) (Kem.kyber768.decapsulate privateKey encapsulated) := by
  refine ⟨fun suite stretched salt => ?_, whole_generate, fun publicKey s => ⟨?_, ?_⟩,
    fun privateKey encapsulated => ⟨?_, ?_⟩⟩
  · obtain ⟨keys, hkeys⟩ := exists_ofStretched suite stretched salt
    exact ⟨keys, hkeys, whole_ofStretched hkeys⟩
  · exact Kem.answer_encapsulate_x25519 publicKey s
  · exact Kem.answer_encapsulate_kyber768 publicKey s
  · exact Kem.answer_decapsulate_x25519 privateKey encapsulated
  · exact Kem.answer_decapsulate_kyber768 privateKey encapsulated

end KeyMaterial

end AgileSeal
