import AgileSeal.Proofs.Engine.Opening
import AgileSeal.Proofs.Keys.Derivation

set_option autoImplicit false

/-! # Hybrid encryption is undone by decryption

A successful encryption is a *run* (`Engine.Run`): all values on the way to the bundle, each with
the step that gave it. Encryption gives a bundle exactly when there is a run for it (`exists_run`,
`encrypt_of_run`), there is a run for every text that is neither empty nor too long unless
Diffie-Hellman refuses (`nonempty_run`), and a run is reversed by the private keys if the key
encapsulations agree: they find the key of the cipher (`Run.keyOf_recorded`) and with it the text
(`Run.reveal`), also under another id of the suite, because the id enters the header alone and the
header travels with the bundle.
-/

namespace AgileSeal

/-! ## Steps -/

namespace Sealing

variable {α : Type}

theorem ofExcept_eq_ok_iff {r : Except Error α} {s s' : RandomStream} {a : α} :
    (ofExcept r s).value = (.ok a, s') ↔ r = .ok a ∧ s = s' := Prod.mk.injEq .. ▸ Iff.rfl

theorem drawing_eq_ok_iff {f : RandomStream → α × RandomStream} {s s' : RandomStream} {a : α} :
    (drawing f s).value = (.ok a, s') ↔ f s = (a, s') := by
  show (Except.ok (f s).1, (f s).2) = (Except.ok a, s') ↔ _
  rw [Prod.mk.injEq, Except.ok.injEq, Prod.ext_iff]

theorem primitive_eq_ok_iff {f : RandomStream → Except PrimitiveError α × RandomStream}
    {s s' : RandomStream} {a : α} :
    (primitive f s).value = (.ok a, s') ↔ f s = (.ok a, s') := by
  show ((f s).1.mapError _, (f s).2) = (Except.ok a, s') ↔ _
  rw [Prod.mk.injEq, mapError_eq_ok_iff, Prod.ext_iff]

theorem ofPrimitive_eq_ok_iff {r : Except PrimitiveError α} {s s' : RandomStream} {a : α} :
    (ofPrimitive r s).value = (.ok a, s') ↔ r = .ok a ∧ s = s' := by
  show (r.mapError _, s) = (Except.ok a, s') ↔ _
  rw [Prod.mk.injEq, mapError_eq_ok_iff]

theorem report_eq_ok_iff {e : Event} {s s' : RandomStream} {a : Unit} :
    (report e s).value = (.ok a, s') ↔ s = s' := by
  show (Except.ok (), s) = (Except.ok a, s') ↔ _
  rw [Prod.mk.injEq]
  exact and_iff_right rfl

end Sealing

namespace Kem

/-- An encapsulation draws 32 bytes for a public key of the right length. -/
theorem encapsulate_eq_ok_iff {k : Kem} {publicKey : Bytes} {s s' : RandomStream}
    {result : Bytes × Bytes} : k.encapsulate publicKey s = (.ok result, s') ↔
      publicKey.length = k.publicKeyLength ∧
      k.transport publicKey (s.segment s.position seedLength) = .ok result ∧
      (s.draw seedLength).2 = s' := by
  rw [encapsulate]
  by_cases hlen : publicKey.length = k.publicKeyLength
  · rw [if_pos hlen, Prod.mk.injEq, RandomStream.draw_fst]
    exact (and_iff_right hlen).symm
  · rw [if_neg hlen]
    constructor
    · intro h
      cases h
    · rintro ⟨h, -⟩
      exact absurd h hlen

end Kem

namespace Engine

/-! ## Runs -/

/-- The salt of the cipher's key in a bundle encrypted from a stream. -/
def freshSalt (e : Engine) (s : RandomStream) : Bytes :=
  s.segment (s.position + seedLength + seedLength) e.saltLength

/-- The nonce in a bundle encrypted from a stream. -/
def freshNonce (e : Engine) (s : RandomStream) : Bytes :=
  s.segment (s.position + seedLength + seedLength + e.saltLength) e.suite.symmetric.nonceLength

/-- A successful encryption. -/
structure Run (e : Engine) (plaintext : Bytes) (keys : KeyMaterial) (s : RandomStream) where
  ephemeral : Bytes
  classicalSecret : Bytes
  encapsulated : Bytes
  pqcSecret : Bytes
  key : Bytes
  associated : Bytes
  ciphertext : Bytes
  tag : Bytes
  nonempty : plaintext ≠ []
  keysFit : keys.problem? e.suite = none
  classical : e.suite.classicalKem.kem.transport keys.classicalPublicKey
    (s.segment s.position seedLength) = .ok (ephemeral, classicalSecret)
  pqc : e.suite.pqcKem.kem.transport keys.pqcPublicKey
    (s.segment (s.position + seedLength) seedLength) = .ok (encapsulated, pqcSecret)
  derived : e.cipherKey classicalSecret pqcSecret (some (e.freshSalt s)) = .ok key
  header : (Header.ofSuite e.suite.id).encode = .ok associated
  sealed : e.suite.symmetric.encrypt key (e.freshNonce s) plaintext associated
    = .ok (ciphertext, tag)

/-- The bundle of a run. -/
def Run.bundle {e : Engine} {plaintext : Bytes} {keys : KeyMaterial} {s : RandomStream}
    (r : Run e plaintext keys s) : Bundle :=
  ⟨Header.ofSuite e.suite.id, {
    ephemeralKey := some r.ephemeral
    encapsulatedKey := r.encapsulated
    nonce := e.freshNonce s
    ciphertext := r.ciphertext
    tag := r.tag
    passphraseSalt := keys.passphraseSalt
    stretchCost := none
    kdfSalt := some (e.freshSalt s) }⟩

/-- A successful encryption has a run. -/
theorem exists_run {e : Engine} {plaintext : Bytes} {keys : KeyMaterial} {s s' : RandomStream}
    {b : Bundle} (h : (e.encrypt plaintext keys s).value = (.ok b, s')) :
    ∃ r : Run e plaintext keys s, r.bundle = b := by
  rw [encrypt] at h
  by_cases hp : plaintext = []
  · rw [if_pos hp] at h
    cases h
  · rw [if_neg hp] at h
    obtain ⟨⟨⟩, s₀, h₀, h⟩ := Stateful.bind_eq_ok h
    obtain ⟨⟨ephemeral, classicalSecret⟩, s₁, h₁, h⟩ := Stateful.bind_eq_ok h
    obtain ⟨⟨encapsulated, pqcSecret⟩, s₂, h₂, h⟩ := Stateful.bind_eq_ok h
    obtain ⟨⟨⟩, s₃, h₃, h⟩ := Stateful.bind_eq_ok h
    obtain ⟨salt, s₄, h₄, h⟩ := Stateful.bind_eq_ok h
    obtain ⟨key, s₅, h₅, h⟩ := Stateful.bind_eq_ok h
    obtain ⟨associated, s₆, h₆, h⟩ := Stateful.bind_eq_ok h
    obtain ⟨nonce, s₇, h₇, h⟩ := Stateful.bind_eq_ok h
    obtain ⟨⟨ciphertext, tag⟩, s₈, h₈, h⟩ := Stateful.bind_eq_ok h
    -- every step says what it drew, so the stream is known throughout
    obtain ⟨hfit, rfl⟩ := Sealing.ofExcept_eq_ok_iff.mp h₀
    obtain ⟨-, hclassical, rfl⟩ := Kem.encapsulate_eq_ok_iff.mp (Sealing.primitive_eq_ok_iff.mp h₁)
    obtain ⟨-, hpqc, rfl⟩ := Kem.encapsulate_eq_ok_iff.mp (Sealing.primitive_eq_ok_iff.mp h₂)
    cases Sealing.report_eq_ok_iff.mp h₃
    cases Sealing.drawing_eq_ok_iff.mp h₄
    obtain ⟨hkey, rfl⟩ := Sealing.ofPrimitive_eq_ok_iff.mp h₅
    obtain ⟨hheader, rfl⟩ := Sealing.ofExcept_eq_ok_iff.mp h₆
    cases Sealing.drawing_eq_ok_iff.mp h₇
    obtain ⟨hsealed, rfl⟩ := Sealing.ofPrimitive_eq_ok_iff.mp h₈
    cases h
    exact ⟨⟨ephemeral, classicalSecret, encapsulated, pqcSecret, key, associated, ciphertext, tag,
      hp, (KeyMaterial.checkFor_eq_ok_iff _ _).mp hfit, hclassical, hpqc, hkey, hheader,
      hsealed⟩, rfl⟩

/-- With both secrets it is left to the cipher whether a text is encrypted. -/
theorem result_encrypt {e : Engine} {plaintext : Bytes} {keys : KeyMaterial} {s : RandomStream}
    {ephemeral classicalSecret encapsulated pqcSecret key associated : Bytes}
    (hplaintext : plaintext ≠ []) (hkeys : keys.problem? e.suite = none)
    (hclassical : e.suite.classicalKem.kem.transport keys.classicalPublicKey
      (s.segment s.position seedLength) = .ok (ephemeral, classicalSecret))
    (hpqc : e.suite.pqcKem.kem.transport keys.pqcPublicKey
      (s.segment (s.position + seedLength) seedLength) = .ok (encapsulated, pqcSecret))
    (hkey : e.cipherKey classicalSecret pqcSecret (some (e.freshSalt s)) = .ok key)
    (hheader : (Header.ofSuite e.suite.id).encode = .ok associated) :
    (e.encrypt plaintext keys s).value.1 =
      ((e.suite.symmetric.encrypt key (e.freshNonce s) plaintext associated).mapError
        fun p => .encryptionFailed p.message).map fun result =>
          ⟨Header.ofSuite e.suite.id, {
            ephemeralKey := some ephemeral
            encapsulatedKey := encapsulated
            nonce := e.freshNonce s
            ciphertext := result.1
            tag := result.2
            passphraseSalt := keys.passphraseSalt
            stretchCost := none
            kdfSalt := some (e.freshSalt s) }⟩ := by
  obtain ⟨hclassicalLength, hpqcLength, -, -⟩ := (KeyMaterial.problem?_eq_none_iff _ _).mp hkeys
  have hfit := (KeyMaterial.checkFor_eq_ok_iff _ _).mpr hkeys
  have h₁ := Kem.encapsulate_eq_ok_iff.mpr ⟨hclassicalLength, hclassical, rfl⟩
  have h₂ := Kem.encapsulate_eq_ok_iff (s := (s.draw seedLength).2).mpr ⟨hpqcLength, hpqc, rfl⟩
  rw [encrypt, if_neg hplaintext]
  refine (Stateful.result_bind_ok (Sealing.ofExcept_eq_ok_iff.mpr ⟨hfit, rfl⟩)).trans ?_
  refine (Stateful.result_bind_ok (Sealing.primitive_eq_ok_iff.mpr h₁)).trans ?_
  refine (Stateful.result_bind_ok (Sealing.primitive_eq_ok_iff.mpr h₂)).trans ?_
  refine (Stateful.result_bind_ok (Sealing.report_eq_ok_iff (a := ()).mpr rfl)).trans ?_
  refine (Stateful.result_bind_ok (Sealing.drawing_eq_ok_iff.mpr rfl)).trans ?_
  refine (Stateful.result_bind_ok (Sealing.ofPrimitive_eq_ok_iff.mpr ⟨hkey, rfl⟩)).trans ?_
  refine (Stateful.result_bind_ok (Sealing.ofExcept_eq_ok_iff.mpr ⟨hheader, rfl⟩)).trans ?_
  refine (Stateful.result_bind_ok (Sealing.drawing_eq_ok_iff.mpr rfl)).trans ?_
  cases hsealed : e.suite.symmetric.encrypt key (e.freshNonce s) plaintext associated with
  | ok result =>
      refine (Stateful.result_bind_ok (Sealing.ofPrimitive_eq_ok_iff.mpr ⟨hsealed, rfl⟩)).trans ?_
      rfl
  | error p =>
      refine Stateful.result_bind_error (e := .encryptionFailed p.message) ?_
      exact congrArg (Except.mapError _) hsealed

/-- A run is what encryption does. -/
theorem encrypt_of_run {e : Engine} {plaintext : Bytes} {keys : KeyMaterial} {s : RandomStream}
    (r : Run e plaintext keys s) : (e.encrypt plaintext keys s).value.1 = .ok r.bundle := by
  rw [result_encrypt r.nonempty r.keysFit r.classical r.pqc r.derived r.header, r.sealed]
  rfl

end Engine

/-! ## What encryption needs -/

/-- The key of the cipher is found for any two secrets. -/
theorem Engine.exists_cipherKey (e : Engine) (classicalSecret pqcSecret : Bytes)
    (salt : Option Bytes) : ∃ key, e.cipherKey classicalSecret pqcSecret salt = .ok key := by
  have hshort : e.suite.symmetric.keyLength ≤ 255 := by
    show 32 ≤ 255
    decide
  exact e.suite.kdf.exists_derive _ salt _ hshort

/-- There is a run for every text that is neither empty nor too long, unless Diffie-Hellman
refuses. -/
theorem Engine.nonempty_run {e : Engine} {plaintext : Bytes} {keys : KeyMaterial}
    {s : RandomStream} (hplaintext : plaintext ≠ []) (hkeys : keys.problem? e.suite = none)
    {shared : Bytes × Bytes}
    (hclassical : e.suite.classicalKem.kem.transport keys.classicalPublicKey
      (s.segment s.position seedLength) = .ok shared)
    {associated : Bytes} (hheader : (Header.ofSuite e.suite.id).encode = .ok associated)
    (hfits : e.suite.symmetric.cipher.mayEncrypt plaintext.length associated.length = true) :
    Nonempty (Run e plaintext keys s) := by
  obtain ⟨⟨encapsulated, pqcSecret⟩, hpqc⟩ := e.suite.pqcKem.exists_transport keys.pqcPublicKey
    (s.segment (s.position + seedLength) seedLength)
  obtain ⟨key, hkey⟩ := e.exists_cipherKey shared.2 pqcSecret (some (e.freshSalt s))
  obtain ⟨⟨ciphertext, tag⟩, hsealed⟩ := e.suite.symmetric.exists_encrypt
    (e.suite.kdf.length_of_derive _ _ _ _ _ hkey)
    (RandomStream.length_segment s _ e.suite.symmetric.nonceLength) hfits
  exact ⟨⟨shared.1, shared.2, encapsulated, pqcSecret, key, associated, ciphertext, tag, hplaintext,
    hkeys, hclassical, hpqc, hkey, hheader, hsealed⟩⟩

/-! ## The way back -/

/-- A suite under another id. -/
def SuiteDefinition.relabelled (suite : SuiteDefinition) (id : String) : SuiteDefinition :=
  { suite with id := id }

/-- Key material fits a suite under any id. -/
theorem KeyMaterial.problem?_relabelled {keys : KeyMaterial} {suite : SuiteDefinition}
    (h : keys.problem? suite = none) (id : String) :
    keys.problem? (suite.relabelled id) = none := by
  rw [problem?_eq_none_iff] at h ⊢
  exact h

namespace Engine.Run

variable {e : Engine} {plaintext : Bytes} {keys : KeyMaterial} {s : RandomStream}

/-- The bundle of a run with a recorded cost. -/
def recorded (r : Run e plaintext keys s) (cost : Option StretchCost) : Bundle :=
  { r.bundle with stretchCost := cost }

/-- The bundle of a run has everything the suite needs, if the salts are not empty and the cost
may be recorded. -/
theorem defect?_recorded (r : Run e plaintext keys s) (hsalt : 0 < e.saltLength)
    {cost : Option StretchCost}
    (hpassphrase : Bundle.saltDefect? e.suite.mode keys.passphraseSalt = none)
    (hcost : Bundle.costDefect? e.suite cost = none) (id : String) :
    (r.recorded cost).defect? (e.suite.relabelled id) = none := by
  obtain ⟨-, hcipher, htag⟩ := SymmetricCipher.decrypt_of_encrypt r.sealed
  have hephemeral := e.suite.classicalKem.length_of_transport r.classical
  have hencapsulated := e.suite.pqcKem.length_of_transport r.pqc
  have hnonce : (e.freshNonce s).length = e.suite.symmetric.nonceLength :=
    RandomStream.length_segment _ _ _
  have hciphertext : r.ciphertext ≠ [] := by
    intro hnil
    rw [hnil, List.length_nil] at hcipher
    exact r.nonempty (List.eq_nil_of_length_eq_zero hcipher.symm)
  have hfresh : (some (e.freshSalt s)) ≠ some [] := by
    intro hnil
    have hlen : (e.freshSalt s).length = e.saltLength := RandomStream.length_segment _ _ _
    rw [Option.some.inj hnil, List.length_nil] at hlen
    omega
  have hfields : Bundle.fieldDefect? (e.suite.relabelled id) (r.recorded cost).toBody = none := by
    show (if r.encapsulated.length ≠ e.suite.pqcKem.kem.encapsulatedLength then _
      else if (e.freshNonce s).length ≠ e.suite.symmetric.nonceLength then _
      else if r.tag.length ≠ e.suite.symmetric.tagLength then _
      else if r.ciphertext = [] then _
      else if some (e.freshSalt s) = some [] then _ else none) = none
    rw [if_neg (not_not_intro hencapsulated), if_neg (not_not_intro hnonce),
      if_neg (not_not_intro htag), if_neg hciphertext, if_neg hfresh]
  have hkey : Bundle.ephemeralDefect? (e.suite.relabelled id) (some r.ephemeral) = none :=
    if_pos hephemeral
  show ((Bundle.ephemeralDefect? _ (some r.ephemeral)).or <| (Bundle.fieldDefect? _ _).or <|
    (Bundle.saltDefect? e.suite.mode keys.passphraseSalt).or <|
      Bundle.costDefect? (e.suite.relabelled id) cost) = none
  rw [hkey, hfields, hpassphrase]
  exact hcost

/-- Whoever agrees on the secrets derives the key that a bundle was sealed with. -/
theorem keyOf_recorded (r : Run e plaintext keys s) (hagree : keys.Agrees e.suite s)
    (cost : Option StretchCost) {e' : Engine} {id : String} (he : e'.suite = e.suite.relabelled id) :
    e'.keyOf (r.recorded cost) keys = .ok r.key := by
  obtain ⟨classical, pqc, hclassical, hpqc, hagreeClassical, hagreePqc⟩ := hagree
  have hprivate : privateKeys keys = .ok (classical, pqc) := by
    rw [privateKeys, hclassical, hpqc]
  have hkey : e'.cipherKey r.classicalSecret r.pqcSecret (some (e.freshSalt s)) = .ok r.key := by
    rw [cipherKey, he]
    exact r.derived
  refine keyOf_eq_ok_iff.mpr ⟨(classical, pqc), r.ephemeral, r.classicalSecret, r.pqcSecret,
    hprivate, rfl, ?_, ?_, hkey⟩
  -- the suite is read up to its id
  · rw [he]
    exact hagreeClassical _ _ r.classical
  · rw [he]
    exact hagreePqc _ _ r.pqc

/-- **A run is reversed by the private keys**, under the label of the bundle or in spite of
it. -/
theorem reveal (r : Run e plaintext keys s) (hagree : keys.Agrees e.suite s)
    {cost : Option StretchCost} {e' : Engine} {id : String}
    (he : e'.suite = e.suite.relabelled id)
    (hdefect : (r.recorded cost).defect? (e.suite.relabelled id) = none) {label : LabelMatch}
    (hlabel : label = .override ∨ id = e.suite.id) :
    e'.reveal (r.recorded cost) keys label = .ok plaintext := by
  have hmatches : ¬(label = .exact ∧ (r.recorded cost).suiteId ≠ e'.suite.id) := by
    rintro ⟨hexact, hne⟩
    rw [he] at hne
    rcases hlabel with hoverride | hid
    · rw [hoverride] at hexact
      cases hexact
    · exact hne hid.symm
  refine reveal_eq_ok_iff.mpr ⟨hmatches, ?_, ?_, r.key, r.associated,
    r.keyOf_recorded hagree cost he, r.header, ?_⟩
  · rw [he]
    exact hdefect
  · rw [he]
    exact KeyMaterial.problem?_relabelled r.keysFit id
  · rw [he]
    exact (SymmetricCipher.decrypt_of_encrypt r.sealed).1

end Engine.Run

end AgileSeal
