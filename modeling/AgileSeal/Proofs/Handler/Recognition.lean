import AgileSeal.Proofs.Handler.Errors
import AgileSeal.Proofs.Handler.Opening

set_option autoImplicit false

/-! # Which suites recognise a bundle

A handler reads a bundle when it has the form of the suite (`Handler.parse_eq_ok_iff`). The form
depends on little of a suite: on where its keys come from, on the length of its nonces and, with a
passphrase, on the function that stretches it (`SuiteDefinition.Recognises`). Ids, labels and
parameters do not matter, and neither do the algorithms that agree in these respects.
-/

namespace AgileSeal

/-- A suite whose handlers read what the handlers of another suite have written. -/
structure SuiteDefinition.Recognises (reader writer : SuiteDefinition) : Prop where
  mode : writer.mode = reader.mode
  nonceLength : writer.symmetric.nonceLength = reader.symmetric.nonceLength
  passphraseKdf : writer.mode = .passphrase → writer.passphraseKdf = reader.passphraseKdf

namespace Bundle

/-- All suites need ephemeral keys, encapsulated keys and tags of the same lengths. -/
theorem fits_of_nonceLength {b : Bundle} {writer : SuiteDefinition}
    (h : b.defect? writer = none) (reader : SuiteDefinition) :
    ephemeralDefect? reader b.ephemeralKey = none ∧ (fieldDefect? reader b.toBody = none ↔
      writer.symmetric.nonceLength = reader.symmetric.nonceLength) := by
  obtain ⟨hephemeral, hfields, -, -⟩ := defect?_eq_none_iff.mp h
  obtain ⟨point, hpoint, hlength⟩ := ephemeralDefect?_eq_none_iff.mp hephemeral
  obtain ⟨hencapsulated, hnonce, htag, hciphertext, hsalt⟩ := fieldDefect?_eq_none_iff.mp hfields
  constructor
  · refine ephemeralDefect?_eq_none_iff.mpr ⟨point, hpoint, hlength.trans ?_⟩
    cases writer.classicalKem
    cases reader.classicalKem
    rfl
  · have hencapsulated' : b.encapsulatedKey.length = reader.pqcKem.kem.encapsulatedLength := by
      refine hencapsulated.trans ?_
      cases writer.pqcKem
      cases reader.pqcKem
      rfl
    rw [fieldDefect?_eq_none_iff, hnonce]
    constructor
    · rintro ⟨-, hsame, -⟩
      exact hsame
    · intro hsame
      exact ⟨hencapsulated', hsame, htag, hciphertext, hsalt⟩

end Bundle

namespace Handler

variable {writer reader : SuiteDefinition} {params : Params} {files : FileSystem}
  {plaintext : Bytes} {credentials : Credentials} {s s' : RandomStream} {b : Bundle}

/-- A bundle has the salt and the cost that another suite needs exactly if this suite finds its keys
in the same way. -/
theorem stretchDefects_of_encrypt_iff (hvalid : params.validate = .ok ())
    (h : ((Handler.new writer params).encrypt files plaintext credentials s).value = (.ok b, s')) :
    Bundle.saltDefect? reader.mode b.passphraseSalt = none ∧
        Bundle.costDefect? reader b.stretchCost = none ↔
      writer.mode = reader.mode ∧
        (writer.mode = .passphrase → writer.passphraseKdf = reader.passphraseKdf) := by
  obtain ⟨-, hform, hcost, hnoSalt⟩ := bundle_of_encrypt hvalid h
  obtain ⟨-, -, hsalt, hlimits⟩ := Bundle.defect?_eq_none_iff.mp hform
  rw [recordedCost] at hcost
  cases hwriter : writer.mode with
  | keyFile =>
      rw [hwriter] at hcost
      rw [hcost, hnoSalt hwriter]
      -- without salt and cost a bundle is complete for suites with a key file alone
      cases reader.mode with
      | keyFile => exact iff_of_true ⟨rfl, rfl⟩ ⟨rfl, fun hmode => KeyMode.noConfusion hmode⟩
      | passphrase =>
          refine iff_of_false ?_ fun hboth => KeyMode.noConfusion hboth.1
          rintro ⟨hmissing, -⟩
          cases hmissing
  | passphrase =>
      rw [hwriter] at hcost hsalt
      rw [hcost] at hlimits
      obtain ⟨-, -, hwithin⟩ := Bundle.costDefect?_eq_none_iff.mp hlimits
      rw [hcost, Bundle.costDefect?_eq_none_iff, StretchCost.kdf_ofParams]
      constructor
      · rintro ⟨-, hmode, hkdf, -⟩
        exact ⟨hmode.symm, fun _ => hkdf⟩
      · rintro ⟨hmode, hkdf⟩
        exact ⟨hmode ▸ hsalt, hmode.symm, hkdf rfl, hwithin⟩

/-- **The form of a sealed bundle** is the one that another suite needs exactly if this suite
recognises it. -/
theorem defect?_of_encrypt_iff (hvalid : params.validate = .ok ())
    (h : ((Handler.new writer params).encrypt files plaintext credentials s).value = (.ok b, s')) :
    b.defect? reader = none ↔ reader.Recognises writer := by
  obtain ⟨-, hform, -, -⟩ := bundle_of_encrypt hvalid h
  obtain ⟨hephemeral, hfields⟩ := Bundle.fits_of_nonceLength hform reader
  rw [Bundle.defect?_eq_none_iff, and_iff_right hephemeral, hfields,
    stretchDefects_of_encrypt_iff hvalid h]
  constructor
  · rintro ⟨hnonce, hmode, hkdf⟩
    exact ⟨hmode, hnonce, hkdf⟩
  · rintro ⟨hmode, hnonce, hkdf⟩
    exact ⟨hnonce, hmode, hkdf⟩

/-- A handler that is made from a definition is the one of the suite, and its parameters are
valid. -/
theorem ofDefinition_eq_ok_iff {suite : SuiteDefinition} {params : Params} {h : Handler} :
    ofDefinition suite params = .ok h ↔ params.validate = .ok () ∧ h = .new suite params := by
  constructor
  · intro hmade
    have hvalid : params.validate = .ok () := (check_bind_eq_ok_iff.mp hmade).1
    rw [ofDefinition_of_validate hvalid] at hmade
    exact ⟨hvalid, (Except.ok.inj hmade).symm⟩
  · rintro ⟨hvalid, rfl⟩
    exact ofDefinition_of_validate hvalid suite

/-- **Which suites recognise a written bundle.** A handler reads what another one has written exactly
if both suites find their keys in the same way, have nonces of the same length and, with a
passphrase, stretch it with the same function; for every other handler the bundle is malformed. So a
handler reads what it has written. -/
theorem parse_of_encrypt {params' : Params} {a a' : Handler}
    (ha : ofDefinition writer params = .ok a) (ha' : ofDefinition reader params' = .ok a')
    (h : (a.encrypt files plaintext credentials s).value = (.ok b, s')) {blob : Bytes}
    (hblob : b.encode = .ok blob) :
    (a'.parse blob = .ok b ↔ reader.Recognises writer) ∧
      (¬reader.Recognises writer →
        ∃ detail, a'.parse blob = .error (.malformedBundle detail)) ∧
      a.parse blob = .ok b := by
  obtain ⟨hvalid, rfl⟩ := ofDefinition_eq_ok_iff.mp ha
  obtain ⟨-, rfl⟩ := ofDefinition_eq_ok_iff.mp ha'
  obtain ⟨hheader, hform, -⟩ := bundle_of_encrypt hvalid h
  have hdecode := Bundle.decode_of_encode_label hheader hblob
  have hreads (suite : SuiteDefinition) (params : Params) :
      (Handler.new suite params).parse blob = .ok b ↔ suite.Recognises writer := by
    rw [parse_eq_ok_iff, and_iff_right hdecode, suite_new, defect?_of_encrypt_iff hvalid h]
  refine ⟨hreads reader params', fun hother => ?_, ?_⟩
  · rcases ((Handler.new reader params').parse_fails_only blob).ok_or_error with
      ⟨found, hfound⟩ | ⟨_, ⟨detail, rfl⟩, herror⟩
    · -- what is read is the bundle that was written
      obtain ⟨hfound', -⟩ := parse_eq_ok_iff.mp hfound
      cases hdecode.symm.trans hfound'
      exact absurd ((hreads reader params').mp hfound) hother
    · exact ⟨detail, herror⟩
  · exact (hreads writer params).mpr ⟨rfl, rfl, fun _ => rfl⟩

/-- A suite with longer nonces. -/
def sampleExtended : SuiteDefinition :=
  { sampleSuite "extended" .passphrase with symmetric := .xchacha20Poly1305 }

/-- A suite with another cipher and other derivations, but nonces of the same length. -/
def sampleSibling : SuiteDefinition :=
  { sampleSuite "sibling" .passphrase with symmetric := .aes256Gcm, kdf := .hkdfSha512 }

/-- A bundle of the sample is read under another id and with another cipher, unless the cipher has
longer nonces. -/
theorem parse_of_encrypt_current : ∃ (a sibling extended : Handler) (b : Bundle) (blob : Bytes),
    ofDefinition (sampleSuite "current" .passphrase) sampleParams = .ok a ∧
      ofDefinition sampleSibling .default = .ok sibling ∧
      ofDefinition sampleExtended sampleParams = .ok extended ∧
      (a.encrypt (.emptyAt []) sampleText (.passphrase "pw") sampleStream).value.1 = .ok b ∧
      b.encode = .ok blob ∧ a.parse blob = .ok b ∧ sibling.parse blob = .ok b ∧
      ∃ detail, extended.parse blob = .error (.malformedBundle detail) := by
  have hvalid : sampleParams.validate = .ok () := rfl
  have ha := ofDefinition_of_validate hvalid (sampleSuite "current" .passphrase)
  have hsibling := ofDefinition_of_validate (show Params.default.validate = .ok () from rfl)
    sampleSibling
  have hextended := ofDefinition_of_validate hvalid sampleExtended
  obtain ⟨x⟩ := nonempty_sealed_sample "current" rfl
  obtain ⟨blob, hblob⟩ := x.exists_encode (by decide)
  have hencrypt := encrypt_of_sealed x (.emptyAt [])
  rcases hseal : ((Handler.new (sampleSuite "current" .passphrase) sampleParams).encrypt
    (.emptyAt []) sampleText (.passphrase "pw") sampleStream).value with ⟨result, s'⟩
  rw [hseal] at hencrypt
  cases hencrypt
  obtain ⟨hread, -, hown⟩ := parse_of_encrypt ha hsibling hseal hblob
  obtain ⟨-, hother, -⟩ := parse_of_encrypt ha hextended hseal hblob
  have hlonger : ¬sampleExtended.Recognises (sampleSuite "current" .passphrase) := by
    rintro ⟨-, hnonce, -⟩
    exact absurd hnonce (by decide)
  exact ⟨_, _, _, x.bundle, blob, ha, hsibling, hextended, congrArg Prod.fst hseal, hblob, hown,
    hread.mpr ⟨rfl, rfl, fun _ => rfl⟩, hother hlonger⟩

end Handler

end AgileSeal
