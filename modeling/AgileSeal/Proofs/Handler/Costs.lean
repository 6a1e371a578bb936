import AgileSeal.Proofs.Handler.Recognition

set_option autoImplicit false

/-! # Bundles that record no cost

A recorded cost is looked at twice: when a bundle is compared with the suite, and when its
passphrase is stretched. The engine does the first again and does not need the second, so all costs
that the suite accepts are one to it (`Engine.decrypt_withCost`). The same is true of a handler as
long as it finds the same keys (`Handler.decryptWith_withCost`).

A bundle that records no cost is stretched at the configured one. The configured cost is of the
function of the suite and, as parameters are valid when a handler is made, within the limits that
hold for bundles; so the bundle is opened as if it had recorded this cost
(`Handler.decryptWith_unrecorded`).
-/

namespace AgileSeal

/-- A bundle with another recorded cost, or with none. -/
def Bundle.withCost (b : Bundle) (cost : Option StretchCost) : Bundle :=
  { b with stretchCost := cost }

/-- A suite accepts the configured cost in a bundle. -/
theorem Bundle.costDefect?_ofParams {suite : SuiteDefinition} {params : Params}
    (hvalid : params.validate = .ok ()) (hmode : suite.mode = .passphrase) :
    costDefect? suite (some (.ofParams suite.passphraseKdf params)) = none :=
  costDefect?_eq_none_iff.mpr
    ⟨hmode, StretchCost.kdf_ofParams _ _, StretchCost.withinLimits_ofParams hvalid _⟩

section

variable {suite : SuiteDefinition} {cost cost' : Option StretchCost}

/-- Of bundles that differ in costs that the suite accepts, the suite finds the same wrong. -/
theorem Bundle.defect?_withCost (hcost : costDefect? suite cost = none)
    (hcost' : costDefect? suite cost' = none) (b : Bundle) :
    (b.withCost cost).defect? suite = (b.withCost cost').defect? suite := by
  simp only [defect?, withCost, hcost, hcost']
  rfl

theorem Engine.reveal_withCost {e : Engine} (hcost : Bundle.costDefect? e.suite cost = none)
    (hcost' : Bundle.costDefect? e.suite cost' = none) (b : Bundle) (keys : KeyMaterial)
    (label : LabelMatch) :
    e.reveal (b.withCost cost) keys label = e.reveal (b.withCost cost') keys label := by
  have hcheck : (b.withCost cost).checkFor e.suite = (b.withCost cost').checkFor e.suite := by
    rw [Bundle.checkFor, Bundle.defect?_withCost hcost hcost' b, ← Bundle.checkFor]
  unfold reveal
  rw [hcheck]
  rfl

/-- **An engine does not care which cost a bundle records**, as long as the suite accepts it. -/
theorem Engine.decrypt_withCost {e : Engine} (hcost : Bundle.costDefect? e.suite cost = none)
    (hcost' : Bundle.costDefect? e.suite cost' = none) (b : Bundle) (keys : KeyMaterial)
    (label : LabelMatch) :
    e.decrypt (b.withCost cost) keys label = e.decrypt (b.withCost cost') keys label := by
  unfold decrypt
  rw [reveal_withCost hcost hcost']
  rfl

end

namespace Handler

/-- **A handler does not care which cost a bundle records**, as long as its suite accepts it and the
same keys are found. -/
theorem decryptWith_withCost {h : Handler} {cost cost' : Option StretchCost}
    (hcost : Bundle.costDefect? h.suite cost = none)
    (hcost' : Bundle.costDefect? h.suite cost' = none) {files : FileSystem} {b : Bundle}
    {credentials : Credentials} {cache : StretchCache}
    (hkeys : h.keysFor files (b.withCost cost) credentials cache
      = h.keysFor files (b.withCost cost') credentials cache) (label : LabelMatch) :
    h.decryptWith files (b.withCost cost) credentials label cache
      = h.decryptWith files (b.withCost cost') credentials label cache := by
  have hrefusal : h.refusal? (b.withCost cost) label = h.refusal? (b.withCost cost') label := by
    unfold refusal?
    rw [Bundle.defect?_withCost hcost hcost']
    rfl
  have hengine (keys : KeyMaterial) :
      h.engine.decrypt (b.withCost cost) keys label = h.engine.decrypt (b.withCost cost') keys label :=
    Engine.decrypt_withCost hcost hcost' b keys label
  simp only [decryptWith, hrefusal, hkeys, hengine]

/-- Without a recorded cost a handler finds the keys that it finds at the configured one. -/
theorem keysFor_unrecorded {suite : SuiteDefinition} (hmode : suite.mode = .passphrase)
    (params : Params) (files : FileSystem) (b : Bundle) (credentials : Credentials)
    (cache : StretchCache) :
    (Handler.new suite params).keysFor files (b.withCost none) credentials cache
      = (Handler.new suite params).keysFor files
          (b.withCost (some (.ofParams suite.passphraseKdf params))) credentials cache := by
  rw [new_of_passphrase hmode]
  cases credentials with
  | passphrase text => rfl
  | keyFile path => rfl

/-- **A bundle that records no cost** is for a handler one that records the configured cost:
whatever else is in the bundle, whatever the credentials are, whether or not the label has to match
and whatever has been stretched before, both give the same result, leave the same stretched keys
behind and are reported in the same way. -/
theorem decryptWith_unrecorded {suite : SuiteDefinition} {params : Params} {h : Handler}
    (hmade : ofDefinition suite params = .ok h) (hmode : suite.mode = .passphrase)
    (files : FileSystem) (b : Bundle) (credentials : Credentials) (label : LabelMatch)
    (cache : StretchCache) :
    h.decryptWith files { b with stretchCost := none } credentials label cache =
      h.decryptWith files
        { b with stretchCost := some (.ofParams suite.passphraseKdf params) }
        credentials label cache := by
  obtain ⟨hvalid, rfl⟩ := ofDefinition_eq_ok_iff.mp hmade
  have hconfigured : Bundle.costDefect? (Handler.new suite params).suite
      (some (.ofParams suite.passphraseKdf params)) = none := by
    rw [suite_new]
    exact Bundle.costDefect?_ofParams hvalid hmode
  -- a cost that is not recorded is no defect of any bundle
  exact decryptWith_withCost rfl hconfigured
    (keysFor_unrecorded hmode params files b credentials cache) label

/-- A suite that stretches with Argon2id. -/
def sampleHardened : SuiteDefinition :=
  { sampleSuite "current" .passphrase with passphraseKdf := .argon2id }

/-- The dearest parameters that are valid. -/
def sampleDearest : Params where
  argon2Memory := Params.maxArgon2Memory
  argon2Iterations := Params.maxArgon2Iterations
  argon2Parallelism := Params.maxArgon2Parallelism
  pbkdf2Iterations := Params.maxPbkdf2Iterations
  saltLength := Params.minSaltLength

/-- A bundle of the suite without a cost. -/
def sampleUnrecorded : Bundle := ⟨Header.ofSuite "current", {
  ephemeralKey := some (Bytes.zeros 32)
  encapsulatedKey := Bytes.zeros 1088
  nonce := Bytes.zeros 12
  ciphertext := [0]
  tag := Bytes.zeros 16
  passphraseSalt := some (Bytes.zeros 16)
  stretchCost := none
  kdfSalt := none }⟩

/-- A bundle that has what the suite needs is stretched at the dearest cost, whether or not it
records it. -/
theorem decryptWith_unrecorded_dearest : ∃ h, ofDefinition sampleHardened sampleDearest = .ok h ∧
    sampleHardened.mode = .passphrase ∧ sampleUnrecorded.defect? sampleHardened = none ∧
    h.decryptWith (.emptyAt []) sampleUnrecorded (.passphrase "pw") .exact .empty =
      h.decryptWith (.emptyAt [])
        { sampleUnrecorded with stretchCost := some (.argon2id 1048576 32 64) }
        (.passphrase "pw") .exact .empty := by
  have hmade := ofDefinition_of_validate (show sampleDearest.validate = .ok () from rfl)
    sampleHardened
  have hform : sampleUnrecorded.defect? sampleHardened = none := by
    refine Bundle.defect?_eq_none_iff.mpr ⟨?_, ?_, rfl, rfl⟩
    · exact Bundle.ephemeralDefect?_eq_none_iff.mpr ⟨_, rfl, Bytes.length_zeros 32⟩
    · exact Bundle.fieldDefect?_eq_none_iff.mpr ⟨Bytes.length_zeros 1088, Bytes.length_zeros 12,
        Bytes.length_zeros 16, List.cons_ne_nil _ _, fun h => by cases h⟩
  exact ⟨_, hmade, rfl, hform,
    decryptWith_unrecorded hmade rfl (.emptyAt []) sampleUnrecorded (.passphrase "pw") .exact .empty⟩

end Handler

end AgileSeal
