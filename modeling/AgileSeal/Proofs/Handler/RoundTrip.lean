import AgileSeal.Proofs.Bundle.WireFormat
import AgileSeal.Proofs.Engine.Opening
import AgileSeal.Proofs.Engine.RoundTrip
import AgileSeal.Proofs.Registry.Configured
import AgileSeal.Proofs.Stretch.Cache
import AgileSeal.Proofs.Stretch.Gate

set_option autoImplicit false

/-! # What a passphrase seals, it opens

A handler that encrypts with a passphrase draws a salt, derives its keys from it and records the
cost (`Handler.Sealed`, `exists_sealed`, `encrypt_of_sealed`). Any handler for the same algorithms
opens the bundle with the same passphrase: salt and cost are read from the bundle, so its
parameters do not matter, and neither keys nor checks depend on the id of the suite
(`Sealed.opens`). Bundles take little more room than their texts, so they can be written
(`Sealed.exists_encode`).
-/

namespace AgileSeal

/-! ## Keys -/

/-- The keys that a suite and parameters derive from a passphrase and the next bytes of a
stream agree on the bytes after them. -/
def KemsAgree (suite : SuiteDefinition) (params : Params) (text : String) (s : RandomStream) :
    Prop :=
  ∀ keys, KeyMaterial.ofPassphrase suite params text (s.draw params.saltLength.toNat).1 = .ok keys →
    keys.Agrees suite (s.draw params.saltLength.toNat).2

/-! ## Room -/

/-- A bundle takes little more room than its text and its salts. -/
theorem Engine.Run.length_body_le {e : Engine} {plaintext : Bytes} {keys : KeyMaterial}
    {s : RandomStream} (r : Run e plaintext keys s) (cost : Option StretchCost) :
    (r.recorded cost).toBody.encode.length ≤
      plaintext.length + (keys.passphraseSalt.getD []).length + e.saltLength + 1300 := by
  obtain ⟨-, hciphertext, htagLength⟩ := SymmetricCipher.decrypt_of_encrypt r.sealed
  have htag : r.tag.length = 16 := htagLength
  have hephemeral : r.ephemeral.length = 32 := by
    rw [e.suite.classicalKem.length_of_transport r.classical]
    cases e.suite.classicalKem with
    | x25519 => rfl
  have hencapsulated : r.encapsulated.length = 1088 := by
    rw [e.suite.pqcKem.length_of_transport r.pqc]
    cases e.suite.pqcKem with
    | kyber768 => rfl
  have hnonce : (e.freshNonce s).length ≤ 24 := by
    have hlength : (e.freshNonce s).length = e.suite.symmetric.nonceLength :=
      RandomStream.length_segment _ _ _
    rw [hlength]
    cases e.suite.symmetric <;> decide
  have hfresh : (e.freshSalt s).length = e.saltLength := RandomStream.length_segment _ _ _
  have hle : (r.recorded cost).toBody.encode.length ≤ r.ephemeral.length + r.encapsulated.length
      + (e.freshNonce s).length + r.ciphertext.length + r.tag.length
      + (keys.passphraseSalt.getD []).length + (e.freshSalt s).length + 76 :=
    Body.length_encode_le _
  omega

/-- A bundle of a text that is not huge can be written. -/
theorem Engine.Run.exists_encode {e : Engine} {plaintext : Bytes} {keys : KeyMaterial}
    {s : RandomStream} (r : Run e plaintext keys s) (cost : Option StretchCost)
    (h : plaintext.length + (keys.passphraseSalt.getD []).length + e.saltLength + 1300
      ≤ Body.maxLength) : ∃ blob, (r.recorded cost).encode = .ok blob :=
  ⟨_, (Bundle.encode_eq_ok_iff _ _).mpr
    ⟨_, r.header, Nat.le_trans (r.length_body_le cost) h, rfl⟩⟩

/-! ## Sealing with a passphrase -/

namespace Handler

/-- An encryption with a passphrase: the keys and the run of the engine. -/
structure Sealed (suite : SuiteDefinition) (params : Params) (text : String) (plaintext : Bytes)
    (s : RandomStream) where
  stretched : Bytes
  keys : KeyMaterial
  mode : suite.mode = .passphrase
  stretch : stretchPassphrase text (s.draw params.saltLength.toNat).1
    (.ofParams suite.passphraseKdf params) = .ok stretched
  expand : KeyMaterial.ofStretched suite stretched (s.draw params.saltLength.toNat).1 = .ok keys
  run : (Engine.new suite params).Run plaintext keys (s.draw params.saltLength.toNat).2

/-- The bundle of an encryption with a passphrase records the cost. -/
def Sealed.bundle {suite : SuiteDefinition} {params : Params} {text : String} {plaintext : Bytes}
    {s : RandomStream} (x : Sealed suite params text plaintext s) : Bundle :=
  x.run.recorded (some (.ofParams suite.passphraseKdf params))

theorem exists_sealed {suite : SuiteDefinition} {params : Params} {files : FileSystem}
    {plaintext : Bytes} {text : String} {s s' : RandomStream} {b : Bundle}
    (h : ((Handler.new suite params).encrypt files plaintext (.passphrase text) s).value
      = (.ok b, s')) :
    ∃ x : Sealed suite params text plaintext s, x.bundle = b := by
  rw [Handler.new] at h
  cases hmode : suite.mode with
  | keyFile =>
      rw [hmode] at h
      cases h
  | passphrase =>
      rw [hmode] at h
      obtain ⟨salt, s₁, h₁, h⟩ := Stateful.bind_eq_ok h
      obtain ⟨stretched, s₂, h₂, h⟩ := Stateful.bind_eq_ok h
      obtain ⟨keys, s₃, h₃, h⟩ := Stateful.bind_eq_ok h
      obtain ⟨sealed, s₄, h₄, h⟩ := Stateful.bind_eq_ok h
      cases Sealing.drawing_eq_ok_iff.mp h₁
      obtain ⟨hstretch, rfl⟩ := Sealing.ofExcept_eq_ok_iff.mp h₂
      obtain ⟨hexpand, rfl⟩ := Sealing.ofExcept_eq_ok_iff.mp h₃
      obtain ⟨run, rfl⟩ := Engine.exists_run h₄
      cases h
      exact ⟨⟨stretched, keys, hmode, hstretch, hexpand, run⟩, rfl⟩

/-- With keys for the passphrase it is left to the engine whether a text is encrypted. -/
theorem result_encrypt_of_keys {suite : SuiteDefinition} {params : Params} {plaintext : Bytes}
    {text : String} {s : RandomStream} {stretched : Bytes} {keys : KeyMaterial}
    (hmode : suite.mode = .passphrase)
    (hstretch : stretchPassphrase text (s.draw params.saltLength.toNat).1
      (.ofParams suite.passphraseKdf params) = .ok stretched)
    (hexpand : KeyMaterial.ofStretched suite stretched (s.draw params.saltLength.toNat).1
      = .ok keys) (files : FileSystem) :
    ((Handler.new suite params).encrypt files plaintext (.passphrase text) s).value.1
      = ((Engine.new suite params).encrypt plaintext keys
          (s.draw params.saltLength.toNat).2).value.1.map
        fun b => { b with stretchCost := some (.ofParams suite.passphraseKdf params) } := by
  rw [Handler.new, hmode]
  refine (Stateful.result_bind_ok (Sealing.drawing_eq_ok_iff.mpr rfl)).trans ?_
  refine (Stateful.result_bind_ok (Sealing.ofExcept_eq_ok_iff.mpr ⟨hstretch, rfl⟩)).trans ?_
  refine (Stateful.result_bind_ok (Sealing.ofExcept_eq_ok_iff.mpr ⟨hexpand, rfl⟩)).trans ?_
  cases hresult : ((Engine.new suite params).encrypt plaintext keys
    (s.draw params.saltLength.toNat).2).value.1 with
  | ok b => exact (Stateful.result_bind_ok (Prod.ext hresult rfl)).trans rfl
  | error e => exact Stateful.result_bind_error hresult

theorem encrypt_of_sealed {suite : SuiteDefinition} {params : Params} {plaintext : Bytes}
    {text : String} {s : RandomStream} (x : Sealed suite params text plaintext s)
    (files : FileSystem) :
    ((Handler.new suite params).encrypt files plaintext (.passphrase text) s).value.1
      = .ok x.bundle := by
  rw [result_encrypt_of_keys x.mode x.stretch x.expand, Engine.encrypt_of_run x.run]
  rfl

variable {suite : SuiteDefinition} {params : Params} {text : String} {plaintext : Bytes}
  {s : RandomStream}

/-- A bundle of a text that is not huge can be written. -/
theorem Sealed.exists_encode (x : Sealed suite params text plaintext s)
    (h : plaintext.length + 2 * params.saltLength.toNat + 1300 ≤ Body.maxLength) :
    ∃ blob, x.bundle.encode = .ok blob := by
  have hsalt : (x.keys.passphraseSalt.getD []).length = params.saltLength.toNat := by
    rw [KeyMaterial.passphraseSalt_ofStretched x.expand, Option.getD_some, RandomStream.draw_fst,
      RandomStream.length_segment]
  have hfresh : (Engine.new suite params).saltLength = params.saltLength.toNat := rfl
  exact x.run.exists_encode _ (by omega)

/-! ## Opening with the passphrase -/

/-- The bundle has everything that the suite needs under any id. -/
theorem Sealed.defect? (x : Sealed suite params text plaintext s) (id : String) :
    x.bundle.defect? (suite.relabelled id) = none := by
  obtain ⟨-, hsalt, hlimits, -⟩ := stretchPassphrase_eq_ok_iff.mp x.stretch
  rw [RandomStream.draw_fst, RandomStream.length_segment] at hsalt
  have hpos : 0 < (Engine.new suite params).saltLength := by
    show 0 < params.saltLength.toNat
    omega
  refine x.run.defect?_recorded hpos ?_ ?_ id
  · have hnil : ¬s.segment s.position params.saltLength.toNat = [] := by
      intro hnil
      have hlen := RandomStream.length_segment s s.position params.saltLength.toNat
      rw [hnil, List.length_nil] at hlen
      omega
    rw [KeyMaterial.passphraseSalt_ofStretched x.expand]
    show Bundle.saltDefect? suite.mode _ = none
    rw [x.mode]
    exact if_neg hnil
  · show Bundle.costDefect? suite (some (.ofParams suite.passphraseKdf params)) = none
    exact Bundle.costDefect?_eq_none_iff.mpr ⟨x.mode, StretchCost.kdf_ofParams _ _, hlimits⟩

/-- Keys for a passphrase are expanded from what it is stretched to with the salt of the bundle. -/
theorem passphraseMaterial_eq_ok_iff {engine : Engine} {params : Params} {b : Bundle}
    {keys : KeyMaterial} : passphraseMaterial engine params b text = .ok keys ↔
      ∃ salt stretched, b.passphraseSalt = some salt ∧
        stretchPassphrase text salt (costOf engine params b) = .ok stretched ∧
        KeyMaterial.ofStretched engine.suite stretched salt = .ok keys := by
  unfold passphraseMaterial
  cases b.passphraseSalt with
  | none =>
      constructor
      · intro h
        cases h
      · rintro ⟨salt, stretched, h, -⟩
        cases h
  | some salt =>
      simp only
      constructor
      · intro h
        cases hstretch : stretchPassphrase text salt (costOf engine params b) with
        | error e =>
            rw [hstretch] at h
            cases h
        | ok stretched =>
            rw [hstretch] at h
            exact ⟨salt, stretched, rfl, hstretch, mapError_eq_ok_iff.mp h⟩
      · rintro ⟨salt', stretched, hsalt, hstretch, hexpand⟩
        cases hsalt
        rw [hstretch]
        exact mapError_eq_ok_iff.mpr hexpand

/-- The keys are found again: the salt and the cost come from the bundle. -/
theorem Sealed.material (x : Sealed suite params text plaintext s) (id : String)
    (params' : Params) :
    passphraseMaterial (.new (suite.relabelled id) params') params' x.bundle text
      = .ok x.keys := by
  have hsalt : x.bundle.passphraseSalt = some (s.draw params.saltLength.toNat).1 :=
    KeyMaterial.passphraseSalt_ofStretched x.expand
  have hcost : costOf (.new (suite.relabelled id) params') params' x.bundle
      = .ofParams suite.passphraseKdf params := rfl
  refine passphraseMaterial_eq_ok_iff.mpr ⟨_, x.stretched, hsalt, ?_, x.expand⟩
  rw [hcost]
  exact x.stretch

/-- **What a passphrase seals, it opens**: a handler for the same algorithms, whatever its
parameters and its id, finds the keys in the bundle and gives the text back, in spite of the
label, or under the label if it has the same id. -/
theorem Sealed.opens (x : Sealed suite params text plaintext s)
    (hagree : KemsAgree suite params text s) (id : String) (params' : Params) (files : FileSystem)
    {label : LabelMatch} (hlabel : label = .override ∨ id = suite.id) :
    (Handler.new (suite.relabelled id) params').answer files x.bundle (.passphrase text) label
      = .ok plaintext := by
  have hmode : (suite.relabelled id).mode = .passphrase := x.mode
  have hnew := new_of_passphrase hmode params'
  have hrefusal : (Handler.new (suite.relabelled id) params').refusal? x.bundle label = none := by
    have hmatches : ¬(label = .exact ∧
        x.bundle.suiteId ≠ (Handler.new (suite.relabelled id) params').suiteId) := by
      rw [suiteId_new]
      rintro ⟨hexact, hne⟩
      rcases hlabel with hoverride | hid
      · rw [hoverride] at hexact
        cases hexact
      · exact hne hid.symm
    have hform : ¬(x.bundle.defect? (Handler.new (suite.relabelled id) params').suite).isSome := by
      rw [suite_new, x.defect? id]
      exact Bool.false_ne_true
    rw [refusal?, if_neg hmatches, if_neg hform]
  have hderived : KeyMaterial.ofPassphrase suite params text (s.draw params.saltLength.toNat).1
      = .ok x.keys := bind_eq_ok_iff.mpr ⟨_, x.stretch, x.expand⟩
  have hsuite : (Engine.new (suite.relabelled id) params').suite = suite.relabelled id := rfl
  have hreveal : (Engine.new (suite.relabelled id) params').reveal x.bundle x.keys label
      = .ok plaintext := x.run.reveal (hagree _ hderived) hsuite (x.defect? id) hlabel
  have hdecrypt : ((Engine.new (suite.relabelled id) params').decrypt x.bundle x.keys label).value
      = .ok plaintext := by
    rw [Engine.decrypt, hreveal]
    rfl
  have hmaterial : (Handler.passphrase (.new (suite.relabelled id) params') params').material files
      x.bundle (.passphrase text) = .ok x.keys := x.material id params'
  rw [answer, hrefusal, hnew]
  simp only [hmaterial]
  exact hdecrypt

/-- A handler reads the bundles that have the form of its suite. -/
theorem parse_eq_ok_iff {h : Handler} {blob : Bytes} {b : Bundle} :
    h.parse blob = .ok b ↔ Bundle.decode blob = .ok b ∧ b.defect? h.suite = none := by
  rw [parse, bind_eq_ok_iff]
  constructor
  · rintro ⟨found, hdecode, hform⟩
    obtain ⟨hcheck, hfound⟩ := check_bind_eq_ok_iff.mp hform
    cases hfound
    exact ⟨hdecode, (Bundle.checkFor_eq_ok_iff _ _).mp hcheck⟩
  · rintro ⟨hdecode, hform⟩
    have hcheck := (Bundle.checkFor_eq_ok_iff _ _).mpr hform
    exact ⟨b, hdecode, check_bind_eq_ok_iff.mpr ⟨hcheck, rfl⟩⟩

/-- The handler that opens a bundle also reads it. -/
theorem Sealed.parse (x : Sealed suite params text plaintext s) {blob : Bytes}
    (hblob : x.bundle.encode = .ok blob) (id : String) (params' : Params) :
    (Handler.new (suite.relabelled id) params').parse blob = .ok x.bundle := by
  refine parse_eq_ok_iff.mpr ⟨Bundle.decode_of_encode rfl rfl hblob, ?_⟩
  rw [suite_new]
  exact x.defect? id

/-- The blob names the suite that it was sealed with. -/
theorem Sealed.suiteIdOf? (x : Sealed suite params text plaintext s) {blob : Bytes}
    (hblob : x.bundle.encode = .ok blob) : Bundle.suiteIdOf? blob = some suite.id :=
  Bundle.suiteIdOf?_of_decode (Bundle.decode_of_encode rfl rfl hblob)

end Handler

/-! ## A sample -/

/-- Parameters for samples: the least cost and the shortest salts. -/
def sampleParams : Params := { Params.default with pbkdf2Iterations := 1, saltLength := 16 }

/-- A stream of zeros. -/
def sampleStream : RandomStream := ⟨fun _ => 0, 0⟩

def sampleText : Bytes := [104, 105]

/-- The passphrase `pw`, stretched once with a salt of zeros. -/
def sampleStretched : Bytes := [195, 14, 18, 90, 214, 22, 178, 245, 96, 115, 172, 167, 11, 240, 192,
  0, 145, 119, 236, 165, 226, 85, 50, 99, 161, 200, 222, 142, 28, 99, 214, 132]

def sampleClassicalSeed : Bytes := [250, 138, 210, 157, 128, 86, 38, 150, 86, 74, 37, 176, 100, 3,
  211, 174, 39, 131, 184, 93, 76, 248, 11, 66, 94, 146, 206, 213, 113, 142, 252, 39]

def samplePqcSeed : Bytes := [42, 221, 80, 194, 13, 82, 151, 230, 240, 57, 189, 73, 222, 96, 14,
  110, 200, 235, 192, 58, 203, 53, 68, 180, 8, 183, 70, 238, 28, 59, 108, 145]

/-- The start of the keystream of the seed. -/
def samplePqcKey : Bytes := [124, 39, 175, 151, 27, 40, 187, 141, 81, 209, 207, 192, 80, 6, 40, 20,
  41, 53, 107, 47, 21, 61, 99, 10, 110, 194, 37, 84, 99, 85, 198, 13]

/-- What Diffie-Hellman agrees on with the seed and a private key of zeros. -/
def sampleClassicalSecret : Bytes := [3, 18, 232, 241, 102, 238, 31, 27, 241, 27, 219, 126, 122, 27,
  58, 226, 34, 219, 165, 87, 118, 187, 148, 89, 49, 235, 239, 53, 131, 173, 104, 0]

/-- What the lattice scheme transports with random bytes of zeros. -/
def samplePqcSecret : Bytes := [194, 127, 217, 83, 116, 204, 93, 165, 245, 31, 25, 17, 27, 81, 139,
  211, 244, 58, 73, 111, 176, 182, 228, 206, 223, 252, 94, 128, 200, 71, 156, 195]

/-- All that is drawn from a stream of zeros. -/
theorem segment_of_zeros {s : RandomStream} (h : s.byteAt = fun _ => 0) (start count : Nat) :
    s.segment start count = Bytes.zeros count := by
  rw [RandomStream.segment, h, List.map_const', List.length_range', Bytes.zeros]

section

variable (id : String)

/-- The keys of a sample do not depend on the id of its suite. -/
def sampleKeys : KeyMaterial :=
  .ofKeyPairs (Kem.x25519.keyPair sampleClassicalSeed) (Kem.kyber768.keyPair samplePqcSeed)
    (some (Bytes.zeros 16))

theorem stretch_sample :
    stretchPassphrase "pw" (Bytes.zeros 16) (.pbkdf2Sha256 1) = .ok sampleStretched := by
  have hkey : (sha256.pbkdf2 (Text.utf8 "pw") (Bytes.zeros 16) 1).toList = sampleStretched := by
    decide +kernel
  rw [stretchPassphrase, if_neg (by decide), if_neg (by decide), if_neg (by decide),
    StretchCost.stretch]
  exact congrArg (fun key => Except.mapError _ (Except.ok key)) hkey

theorem expand_sample :
    KeyMaterial.ofStretched (sampleSuite id .passphrase) sampleStretched (Bytes.zeros 16)
      = .ok sampleKeys := by
  have hclassical : sha256.hkdf sampleStretched (Bytes.zeros 16)
      (Text.utf8 (keyPairContext ++ "/" ++ Algorithm.name ClassicalKem.x25519)) seedLength
        = some sampleClassicalSeed := by
    decide +kernel
  have hpqc : sha256.hkdf sampleStretched (Bytes.zeros 16)
      (Text.utf8 (keyPairContext ++ "/" ++ Algorithm.name PqcKem.kyber768)) seedLength
        = some samplePqcSeed := by
    decide +kernel
  have hderive {context key : Bytes}
      (h : sha256.hkdf sampleStretched (Bytes.zeros 16) context seedLength = some key) :
      KeyDerivation.hkdfSha256.derive sampleStretched (some (Bytes.zeros 16)) context seedLength
        = .ok key := KeyDerivation.derive_of_hkdf h
  exact KeyMaterial.ofStretched_eq_ok_iff.mpr ⟨sampleClassicalSeed, samplePqcSeed,
    mapError_eq_ok_iff.mpr (hderive hclassical), mapError_eq_ok_iff.mpr (hderive hpqc), rfl⟩

theorem multiply_sample : X25519.multiply sampleClassicalSeed (X25519.publicKey (Bytes.zeros 32))
      = sampleClassicalSecret ∧
    X25519.multiply (Bytes.zeros 32) (X25519.publicKey sampleClassicalSeed)
      = sampleClassicalSecret := by
  decide +kernel

theorem stream_sample :
    (ChaCha20.block samplePqcSeed (Bytes.zeros 12) 0).take 32 = samplePqcKey := by
  decide +kernel

/-- The lattice scheme on the sample. Both values come from the same numbers, which are the longest
part of the evaluation. -/
theorem survives_sample : Kyber.Packed.survives samplePqcKey (Bytes.zeros 32) = true ∧
    Kyber.Packed.transported samplePqcKey (Bytes.zeros 32) = samplePqcSecret := by
  decide +kernel

/-- Both key encapsulations agree on the sample: everything they compute is evaluated. -/
theorem agrees_sample (mode : KeyMode) {s : RandomStream} (h : s.byteAt = fun _ => 0) :
    sampleKeys.Agrees (sampleSuite id mode) s := by
  obtain ⟨hforth, hback⟩ := multiply_sample
  refine ⟨_, _, rfl, rfl, ?_, ?_⟩
  · rw [segment_of_zeros h]
    exact Kem.x25519_agrees rfl (hforth.trans hback.symm)
  · rw [segment_of_zeros h]
    exact Kem.kyber768_agrees (stream_sample ▸ survives_sample.1)

theorem kemsAgree_sample :
    KemsAgree (sampleSuite id .passphrase) sampleParams "pw" sampleStream := by
  intro keys hkeys
  rw [RandomStream.draw_fst, segment_of_zeros rfl] at hkeys
  obtain ⟨stretched, hstretched, hkeys⟩ := bind_eq_ok_iff.mp hkeys
  have hsample : stretched = sampleStretched := Except.ok.inj (hstretched.symm.trans stretch_sample)
  have hsampleKeys : keys = sampleKeys := by
    rw [hsample] at hkeys
    exact Except.ok.inj (hkeys.symm.trans (expand_sample id))
  rw [hsampleKeys]
  exact agrees_sample id .passphrase rfl

/-- Diffie-Hellman does not refuse the sample. -/
theorem transport_sample {s : RandomStream} (h : s.byteAt = fun _ => 0) :
    Kem.x25519.transport (X25519.publicKey sampleClassicalSeed) (s.segment s.position seedLength)
      = .ok (X25519.publicKey (Bytes.zeros 32), sampleClassicalSecret) := by
  have hshared : sampleClassicalSecret ≠ Bytes.zeros 32 := by decide
  rw [segment_of_zeros h]
  show Kem.x25519.transport _ (Bytes.zeros 32) = _
  rw [Kem.x25519_transport, multiply_sample.2, Kem.contributory, if_neg hshared]
  rfl

/-- The passphrase of the sample seals any text that is neither empty nor too long. -/
theorem nonempty_sealed_of_zeros {associated : Bytes}
    (hid : (Header.ofSuite id).encode = .ok associated) {plaintext : Bytes}
    (hplaintext : plaintext ≠ [])
    (hfits : DetachedCipher.chacha20Poly1305.mayEncrypt plaintext.length associated.length = true)
    {s : RandomStream} (hs : s.byteAt = fun _ => 0) :
    Nonempty (Handler.Sealed (sampleSuite id .passphrase) sampleParams "pw" plaintext s) := by
  have hstretch : stretchPassphrase "pw" (s.segment s.position 16) (.pbkdf2Sha256 1)
      = .ok sampleStretched := by
    rw [segment_of_zeros hs]
    exact stretch_sample
  have hexpand : KeyMaterial.ofStretched (sampleSuite id .passphrase) sampleStretched
      (s.segment s.position 16) = .ok sampleKeys := by
    rw [segment_of_zeros hs]
    exact expand_sample id
  obtain ⟨run⟩ := Engine.nonempty_run (e := .new (sampleSuite id .passphrase) sampleParams)
    (s := (s.draw sampleParams.saltLength.toNat).2) hplaintext
    (KeyMaterial.problem?_ofStretched hexpand) (transport_sample hs) hid hfits
  exact ⟨⟨sampleStretched, sampleKeys, rfl, hstretch, hexpand, run⟩⟩

/-- The sample is sealed. -/
theorem nonempty_sealed_sample {associated : Bytes}
    (hid : (Header.ofSuite id).encode = .ok associated) :
    Nonempty (Handler.Sealed (sampleSuite id .passphrase) sampleParams "pw" sampleText
      sampleStream) := by
  have hplaintext : sampleText ≠ [] := by decide
  exact nonempty_sealed_of_zeros id hid hplaintext rfl rfl

end

end AgileSeal
