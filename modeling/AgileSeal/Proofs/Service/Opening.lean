import AgileSeal.Proofs.Handler.Opening
import AgileSeal.Proofs.Service.KeyFiles
import AgileSeal.Proofs.Service.RoundTrip

set_option autoImplicit false

/-! # Round trips with any credentials

Whatever a service encrypts, with a passphrase or with a key file, every service that describes the
active suite in the same way and has it in its order decrypts under its label, if the key file is
the same (`decrypt_of_encrypt_listed`). The keys that provisioning makes fit the suite and are found
in the file that it writes, so a key file works from end to end
(`decrypt_of_encrypt_provisioned`).
-/

namespace AgileSeal

namespace Service

variable {σ τ : Type}

/-! ## A service that has the suite -/

/-- A suite that a service lists opens a bundle under its label if its handler does. -/
theorem decrypt_of_answer {c : Config} {w : World σ} (hw : w.registry.Follows c)
    {suite : SuiteDefinition} (hsuite : c.suite? suite.id = some suite)
    (horder : suite.id ∈ c.order) {blob plaintext : Bytes} {b : Bundle}
    (hdecode : Bundle.decode blob = .ok b) (hlabel : b.suiteId = suite.id)
    (hform : b.defect? suite = none) {credentials : Credentials}
    (hanswer : (Handler.new suite c.params).answer w.files b credentials .exact
      = .ok plaintext) :
    (decrypt blob credentials w).value.1 = .ok ⟨plaintext, suite.id⟩ := by
  have hid : (Handler.new suite c.params).suiteId = suite.id := Handler.suiteId_new _ _
  have hparse : (Handler.new suite c.params).parse blob = .ok b := by
    refine Handler.parse_eq_ok_iff.mpr ⟨hdecode, ?_⟩
    rwa [Handler.suite_new]
  have halone : Search.alone w.files blob credentials (.new suite c.params, .targeted)
      = .ok plaintext := Search.alone_eq_ok_iff.mpr ⟨b, hparse, hanswer⟩
  obtain ⟨rest, hattempts⟩ := Search.sequence_of_named (nodup_candidates hw)
    (mem_candidates hw hsuite horder)
  have hnone : ∀ a ∈ ([] : List (Handler × Phase)),
      Search.turnedDown w.files blob credentials a = true := List.forall_mem_nil _
  obtain ⟨hpayload, -⟩ := Search.naive_of_split w.files blob credentials hnone halone rest
  have hfirst : (w.attempts blob).findSome? (Search.payload? w.files blob credentials)
      = some ⟨plaintext, suite.id⟩ := by
    rw [hid] at hattempts hpayload
    rw [World.attempts, Bundle.suiteIdOf?_of_decode hdecode, hlabel, hattempts]
    exact hpayload
  rw [decrypt_spec hw, Search.naiveResult, hfirst]

/-- The bundle that a service makes has the label and the form of its active suite and records the
cost of its parameters. -/
theorem exists_bundle_of_encrypt {c : Config} {w : World σ} (hw : w.registry.Follows c)
    {suite : SuiteDefinition} (hactive : c.suite? c.active = some suite) {plaintext blob : Bytes}
    {credentials : Credentials} (h : (encrypt plaintext credentials w).value.1 = .ok blob) :
    ∃ b s', ((Handler.new suite c.params).encrypt w.files plaintext credentials w.random).value
        = (.ok b, s') ∧
      Bundle.decode blob = .ok b ∧ b.suiteId = suite.id ∧ b.defect? suite = none ∧
      b.stretchCost = Handler.recordedCost suite c.params ∧
      (suite.mode = .keyFile → b.passphraseSalt = none) := by
  obtain ⟨found, b, s', hfound, hseal, hwrite⟩ := exists_of_encrypt hw h
  rw [hactive] at hfound
  cases hfound
  obtain ⟨hheader, hform, hcost, hsalt⟩ :=
    Handler.bundle_of_encrypt (Config.params_validate hw.valid) hseal
  exact ⟨b, s', hseal, Bundle.decode_of_encode_label hheader hwrite,
    congrArg Header.suiteId hheader, hform, hcost, hsalt⟩

/-- **Credentials open what they have sealed.** Whatever a service encrypts with its active suite,
every service that describes this suite in the same way and has it in its order decrypts, if the
key file is the same and the key encapsulations agree. -/
theorem decrypt_of_encrypt_listed {ca cb : Config} {wa : World σ} {wb : World τ}
    (ha : wa.registry.Follows ca) (hb : wb.registry.Follows cb) {suite : SuiteDefinition}
    (hactive : ca.suite? ca.active = some suite) (hsame : cb.suite? suite.id = some suite)
    (horder : suite.id ∈ cb.order) {plaintext blob : Bytes} {credentials : Credentials}
    (hagree : credentials.Agree suite ca.params wa.files wa.random)
    (hfiles : credentials.Unchanged wa.files wb.files)
    (hblob : (encrypt plaintext credentials wa).value.1 = .ok blob) :
    (decrypt blob credentials wb).value.1 = .ok ⟨plaintext, suite.id⟩ := by
  obtain ⟨b, s', hseal, hdecode, hlabel, hform, -, -⟩ := exists_bundle_of_encrypt ha hactive hblob
  have hanswer := Handler.answer_of_encrypt (Config.params_validate ha.valid) hseal hagree hfiles
    cb.params
  exact decrypt_of_answer hb hsame horder hdecode hlabel hform hanswer

/-! ## Key files -/

theorem value_resolve {c : Config} {w : World σ} (hw : w.registry.Follows c) (id : String) :
    ∃ r : Registry σ, (resolve id w).value = (c.answer id, { w with registry := r }) := by
  obtain ⟨r, hfind, -⟩ := hw.find id w.factories
  refine ⟨r, ?_⟩
  have hrun : ((Registry.resolve id).run (w.registry, w.factories)).value
      = (c.answer id, r, w.factories) := hfind
  rw [resolve, Stateful.value_bind_ok (Action.value_resolving hrun)]
  rfl

/-- Provisioning writes the keys that a suite generates next. -/
theorem write_of_provision {c : Config} {w w' : World σ} (hw : w.registry.Follows c)
    {suite : SuiteDefinition} (hsuite : c.suite? suite.id = some suite) {path : String}
    (h : (provision suite.id path w).value = (.ok (), w')) :
    (KeyFile.store path suite (KeyMaterial.generate suite w.random).1).on w.files
      = (.ok (), w'.files) := by
  obtain ⟨handler, w₁, h₁, h⟩ := Stateful.bind_eq_ok h
  obtain ⟨keys, w₂, h₂, h⟩ := Stateful.bind_eq_ok h
  obtain ⟨r, hresolve⟩ := value_resolve hw suite.id
  rw [Config.answer_eq_ok_iff.mpr ⟨suite, hsuite, rfl⟩, h₁, Prod.mk.injEq] at hresolve
  obtain ⟨hhandler, rfl⟩ := hresolve
  cases hhandler
  cases h₂
  obtain ⟨written, hwritten, rfl⟩ := writeKeys_eq_ok_iff.mp h
  rw [Handler.suite_new] at hwritten
  exact hwritten

/-- Provisioning succeeds for every path that can be written. -/
theorem provision_of_write {c : Config} {w : World σ} (hw : w.registry.Follows c)
    {suite : SuiteDefinition} (hsuite : c.suite? suite.id = some suite) {path : String}
    {written : FileSystem}
    (h : w.files.write path (Text.utf8 (KeyFile.ofMaterial suite
      (KeyMaterial.generate suite w.random).1).toJson) = .ok written) :
    ∃ w', (provision suite.id path w).value = (.ok (), w') ∧ w'.files = written := by
  obtain ⟨r, hresolve⟩ := value_resolve hw suite.id
  rw [Config.answer_eq_ok_iff.mpr ⟨suite, hsuite, rfl⟩] at hresolve
  have hfit : (KeyMaterial.generate suite w.random).1.checkFor suite = .ok () :=
    (KeyMaterial.whole_generate suite w.random).fits
  have hwritten : (KeyFile.store path suite (KeyMaterial.generate suite w.random).1).on w.files
      = (.ok (), written) := KeyFile.store_eq_ok_iff.mpr ⟨hfit, h⟩
  let w₁ : World σ := { w with registry := r }
  let w₂ : World σ := { w₁ with
    random := (KeyMaterial.generate (Handler.new suite c.params).suite w.random).2 }
  have hkeys : (Action.sealing (Sealing.drawing
      (KeyMaterial.generate (Handler.new suite c.params).suite)) w₁).value = (.ok _, w₂) := rfl
  have hwrite : (writeKeys path (Handler.new suite c.params).suite
      (KeyMaterial.generate (Handler.new suite c.params).suite w.random).1 w₂).value
        = (.ok (), { w₂ with files := written }) := by
    refine writeKeys_eq_ok_iff.mpr ⟨written, ?_, rfl⟩
    rw [Handler.suite_new]
    exact hwritten
  refine ⟨{ w₂ with files := written }, ?_, rfl⟩
  refine (Stateful.value_bind_ok hresolve).trans ?_
  exact (Stateful.value_bind_ok hkeys).trans hwrite

/-- **Key files work end to end.** If a service whose active suite has its keys in a file, and is in
its order, provisions such a file, then whatever it encrypts with the file it decrypts with the
file as long as nobody changes it, if the key encapsulations agree on the keys that were made. The
bundle has neither the salt of a passphrase nor a cost. -/
theorem decrypt_of_encrypt_provisioned {c : Config} {w₀ w₁ w₂ w₃ : World σ}
    (h₀ : Registry.Built c w₀.registry) (h₂ : Registry.Built c w₂.registry)
    (h₃ : Registry.Built c w₃.registry) {suite : SuiteDefinition}
    (hactive : c.suite? c.active = some suite) (hmode : suite.mode = .keyFile)
    (horder : suite.id ∈ c.order) {path : String}
    (hprovision : (provision suite.id path w₀).value = (.ok (), w₁))
    (hfile₂ : w₂.files.read path = w₁.files.read path)
    (hfile₃ : w₃.files.read path = w₁.files.read path)
    (hagree : (KeyMaterial.generate suite w₀.random).1.Agrees suite w₂.random)
    {plaintext blob : Bytes} (hblob : (encrypt plaintext (.keyFile path) w₂).value.1 = .ok blob) :
    (decrypt blob (.keyFile path) w₃).value.1 = .ok ⟨plaintext, suite.id⟩ ∧
      ∃ b, Bundle.decode blob = .ok b ∧ b.passphraseSalt = none ∧ b.stretchCost = none := by
  have hsuite : c.suite? suite.id = some suite := by
    rw [Config.suite?_id hactive]
    exact hactive
  have hload := KeyFile.load_of_write (write_of_provision h₀.follows hsuite hprovision)
  have hkeys : Credentials.Agree (.keyFile path) suite c.params w₂.files w₂.random := by
    intro keys hkeys
    rw [KeyFile.load_congr hfile₂, hload] at hkeys
    cases hkeys
    exact hagree
  have hfiles : Credentials.Unchanged (.keyFile path) w₂.files w₃.files := by
    intro other hother
    cases hother
    rw [hfile₃, hfile₂]
  obtain ⟨b, -, -, hdecode, -, -, hcost, hsalt⟩ :=
    exists_bundle_of_encrypt h₂.follows hactive hblob
  refine ⟨decrypt_of_encrypt_listed h₂.follows h₃.follows hactive hsuite horder hkeys hfiles hblob,
    b, hdecode, hsalt hmode, ?_⟩
  rw [hcost, Handler.recordedCost, hmode]

end Service

/-! ## A sample -/

/-- A stream that begins with the seeds of the sample. -/
def sampleSeedStream : RandomStream :=
  ⟨fun i => (sampleClassicalSeed ++ samplePqcSeed).getD i 0, 0⟩

/-- The keys of the sample as they are made for a file. -/
def sampleFileKeys : KeyMaterial := { sampleKeys with passphraseSalt := none }

theorem generate_sample (id : String) :
    (KeyMaterial.generate (sampleSuite id .keyFile) sampleSeedStream).1 = sampleFileKeys := by
  have hclassical : (sampleSeedStream.draw seedLength).1 = sampleClassicalSeed := by
    decide +kernel
  have hpqc : ((sampleSeedStream.draw seedLength).2.draw seedLength).1 = samplePqcSeed := by
    decide +kernel
  show KeyMaterial.ofKeyPairs (Kem.x25519.keyPair (sampleSeedStream.draw seedLength).1)
    (Kem.kyber768.keyPair ((sampleSeedStream.draw seedLength).2.draw seedLength).1) none = _
  rw [hclassical, hpqc]
  rfl

/-- The sample is sealed with a file that holds its keys. -/
theorem nonempty_fileSealed_sample {id : String} {params : Params} {files : FileSystem}
    {path : String} {associated : Bytes} (hid : (Header.ofSuite id).encode = .ok associated)
    (hload : KeyFile.load files path (sampleSuite id .keyFile) = .ok sampleFileKeys) :
    Nonempty (Handler.FileSealed (sampleSuite id .keyFile) params files path sampleText
      sampleStream) := by
  have hkeys : sampleFileKeys.problem? (sampleSuite id .keyFile) = none :=
    generate_sample id ▸ (KeyMaterial.whole_generate _ _).problem?_eq_none
  have hplaintext : sampleText ≠ [] := by decide
  obtain ⟨run⟩ := Engine.nonempty_run (e := .new (sampleSuite id .keyFile) params)
    (s := sampleStream) hplaintext hkeys (transport_sample rfl) hid rfl
  exact ⟨⟨sampleFileKeys, rfl, hload, run⟩⟩

namespace Service

/-- A service that reads the sample provisions a key file. -/
theorem exists_provision_sample : ∃ w w' : World Unit,
    Registry.Built sampleReader w.registry ∧ w.random = sampleSeedStream ∧
      (provision "archive" "keys.json" w).value = (.ok (), w') ∧
      KeyFile.load w'.files "keys.json" (sampleSuite "archive" .keyFile) = .ok sampleFileKeys := by
  have hactive : sampleReader.suite? "archive" = some (sampleSuite "archive" .keyFile) := rfl
  obtain ⟨r, hr⟩ := Registry.exists_ofConfig rfl hactive ()
  have hbuilt : Registry.Built sampleReader r := .ofConfig hr
  let w : World Unit := ⟨r, (), sampleSeedStream, .emptyAt []⟩
  have hvacant : (FileSystem.emptyAt []).node? ["keys.json"] ≠ some .directory := by
    intro h
    cases h
  have hwrite : w.files.write "keys.json" (Text.utf8 (KeyFile.ofMaterial
      (sampleSuite "archive" .keyFile)
        (KeyMaterial.generate (sampleSuite "archive" .keyFile) w.random).1).toJson) = .ok _ :=
    FileSystem.write_eq_ok_iff.mpr ⟨rfl, ["keys.json"], ⟨[], rfl, rfl⟩, hvacant, rfl⟩
  obtain ⟨w', hprovision, -⟩ := provision_of_write hbuilt.follows hactive hwrite
  refine ⟨w, w', hbuilt, rfl, hprovision, ?_⟩
  rw [KeyFile.load_of_write (write_of_provision hbuilt.follows hactive hprovision)]
  rw [show w.random = sampleSeedStream from rfl, generate_sample]
  rfl

/-- The reader provisions a file for its active suite, encrypts with it and decrypts again. -/
theorem decrypt_of_encrypt_provisioned_archive : ∃ (w₀ w₁ w₂ : World Unit) (blob : Bytes),
    Registry.Built sampleReader w₀.registry ∧ Registry.Built sampleReader w₂.registry ∧
      (provision "archive" "keys.json" w₀).value = (.ok (), w₁) ∧
      w₂.files.read "keys.json" = w₁.files.read "keys.json" ∧
      (encrypt sampleText (.keyFile "keys.json") w₂).value.1 = .ok blob ∧
      (decrypt blob (.keyFile "keys.json") w₂).value.1 = .ok ⟨sampleText, "archive"⟩ ∧
      ∃ b, Bundle.decode blob = .ok b ∧ b.passphraseSalt = none ∧ b.stretchCost = none := by
  have hactive : sampleReader.suite? sampleReader.active
      = some (sampleSuite "archive" .keyFile) := rfl
  obtain ⟨w₀, w₁, h₀, hrandom, hprovision, hload⟩ := exists_provision_sample
  let w₂ : World Unit := ⟨w₀.registry, (), sampleStream, w₁.files⟩
  have h₂ : Registry.Built sampleReader w₂.registry := h₀
  have hagree : (KeyMaterial.generate (sampleSuite "archive" .keyFile) w₀.random).1.Agrees
      (sampleSuite "archive" .keyFile) w₂.random := by
    rw [hrandom, generate_sample]
    exact agrees_sample "archive" .keyFile rfl
  obtain ⟨x⟩ : Nonempty (Handler.FileSealed (sampleSuite "archive" .keyFile) sampleReader.params
      w₂.files "keys.json" sampleText w₂.random) := nonempty_fileSealed_sample rfl hload
  obtain ⟨blob, hwrite⟩ := x.exists_encode (by decide)
  have hblob : (encrypt sampleText (.keyFile "keys.json") w₂).value.1 = .ok blob :=
    encrypt_of_handler h₂.follows hactive (Handler.encrypt_of_fileSealed x) hwrite
  have hprovision' : (provision (sampleSuite "archive" .keyFile).id "keys.json" w₀).value
      = (.ok (), w₁) := hprovision
  have horder : (sampleSuite "archive" .keyFile).id ∈ sampleReader.order := by decide
  obtain ⟨hdecrypt, hbundle⟩ := decrypt_of_encrypt_provisioned h₀ h₂ h₂ hactive rfl horder
    hprovision' rfl rfl hagree hblob
  exact ⟨w₀, w₁, w₂, blob, h₀, h₂, hprovision, rfl, hblob, hdecrypt, hbundle⟩

end Service

end AgileSeal
