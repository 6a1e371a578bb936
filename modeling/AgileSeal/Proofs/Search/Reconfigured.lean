import AgileSeal.Proofs.Handler.RoundTrip
import AgileSeal.Proofs.Search.Naive
import Mathlib.Data.List.Basic

set_option autoImplicit false

/-! # A changed configuration affects new encryptions only

Two configurations with the same order and the same suites under the ids of that order have the
same candidates, up to the parameters (`Config.candidates_eq`). A handler reads its parameters
when it encrypts, and when it opens a bundle that does not say how its passphrase was stretched.
In every other case the parameters do not matter (`Handler.answer_new`), and so the search comes
to the same answer by the same attempts (`Service.search_eq_of_same_suites`).
-/

namespace AgileSeal

/-! ## Handlers -/

/-- The keys for a blob are found without the parameters of a handler: they are in a file, or
the blob is no bundle, or the bundle records how its passphrase was stretched. -/
def Credentials.Suffice (credentials : Credentials) (blob : Bytes) : Prop :=
  (∃ path, credentials = .keyFile path) ∨ (∀ b, Bundle.decode blob ≠ .ok b) ∨
    ∃ b, Bundle.decode blob = .ok b ∧ b.stretchCost ≠ none

namespace Handler

theorem parse_new (suite : SuiteDefinition) (params params' : Params) (blob : Bytes) :
    (new suite params).parse blob = (new suite params').parse blob := by
  rw [parse, parse, suite_new, suite_new]

/-- The keys come from a file, or are stretched as the bundle says. -/
theorem material_new (suite : SuiteDefinition) (params params' : Params) (files : FileSystem)
    {b : Bundle} {credentials : Credentials}
    (h : (∃ path, credentials = .keyFile path) ∨ b.stretchCost ≠ none) :
    (new suite params).material files b credentials
      = (new suite params').material files b credentials := by
  rw [new, new]
  cases suite.mode with
  | keyFile => cases credentials <;> rfl
  | passphrase =>
      cases credentials with
      | keyFile path => rfl
      | passphrase text =>
          obtain ⟨path, hpath⟩ | hrecorded := h
          · cases hpath
          · obtain ⟨cost, hcost⟩ := Option.ne_none_iff_exists'.mp hrecorded
            show passphraseMaterial (.new suite params) params b text
              = passphraseMaterial (.new suite params') params' b text
            rw [passphraseMaterial, passphraseMaterial, costOf, costOf, hcost]
            rfl

theorem refusal?_new (suite : SuiteDefinition) (params params' : Params) (b : Bundle)
    (label : LabelMatch) :
    (new suite params).refusal? b label = (new suite params').refusal? b label := by
  rw [refusal?, refusal?, suiteId_new, suiteId_new, suite_new, suite_new]

/-- **Parameters do not matter for decryption** where the keys are found without them: the
length of new salts is not looked at. -/
theorem answer_new (suite : SuiteDefinition) (params params' : Params) (files : FileSystem)
    {b : Bundle} {credentials : Credentials} (label : LabelMatch)
    (h : (∃ path, credentials = .keyFile path) ∨ b.stretchCost ≠ none) :
    (new suite params).answer files b credentials label
      = (new suite params').answer files b credentials label := by
  rw [answer, answer, refusal?_new suite params params', material_new suite params params' files h,
    engine_new, engine_new]
  rfl

end Handler

/-! ## Candidates -/

namespace Config

/-- The suites to try when decrypting. -/
def candidateSuites (c : Config) : List SuiteDefinition := c.order.eraseDups.filterMap c.suite?

theorem candidates_eq (c : Config) :
    c.candidates = c.candidateSuites.map fun suite => Handler.new suite c.params := by
  rw [candidates, candidateSuites, List.map_filterMap]
  rfl

/-- The suites to try are those that the entries of the order describe. -/
theorem candidateSuites_eq {c c' : Config} (horder : c.order = c'.order)
    (hentries : ∀ id ∈ c.order, c.suites.get? id = c'.suites.get? id) :
    c.candidateSuites = c'.candidateSuites := by
  rw [candidateSuites, candidateSuites, ← horder]
  refine List.filterMap_congr fun id hid => ?_
  rw [suite?, suite?, hentries id (List.mem_eraseDups.mp hid)]

end Config

namespace Search

/-- The attempts with the suites of candidates, in order. -/
def suiteSequence (label : Option String) (suites : List SuiteDefinition) :
    List (SuiteDefinition × Phase) :=
  (suites.filter fun suite => some suite.id = label).map (·, .targeted) ++
    (suites.filter fun suite => some suite.id ≠ label).map (·, .fallback)

/-- The attempt with a suite. -/
def attemptOf (params : Params) (a : SuiteDefinition × Phase) : Handler × Phase :=
  (.new a.1 params, a.2)

@[simp] theorem suiteId_attemptOf (params : Params) (a : SuiteDefinition × Phase) :
    (attemptOf params a).1.suiteId = a.1.id := Handler.suiteId_new _ _

@[simp] theorem phase_attemptOf (params : Params) (a : SuiteDefinition × Phase) :
    (attemptOf params a).2 = a.2 := rfl

/-- The order of attempts reads the suites of the candidates alone. -/
theorem sequence_map (label : Option String) (suites : List SuiteDefinition) (params : Params) :
    sequence label (suites.map fun suite => Handler.new suite params)
      = (suiteSequence label suites).map (attemptOf params) := by
  rw [sequence, suiteSequence, List.filter_map, List.filter_map, List.map_append, List.map_map,
    List.map_map, List.map_map, List.map_map]
  simp only [Function.comp_def, Handler.suiteId_new, attemptOf]

section

variable (files : FileSystem) {blob : Bytes} {credentials : Credentials}

/-- An attempt made alone does not depend on the parameters, if the keys are found without
them. -/
theorem alone_attemptOf (h : credentials.Suffice blob) (params params' : Params)
    (a : SuiteDefinition × Phase) : alone files blob credentials (attemptOf params a)
      = alone files blob credentials (attemptOf params' a) := by
  rw [alone, alone]
  simp only [attemptOf]
  rw [Handler.parse_new a.1 params params']
  cases hparse : (Handler.new a.1 params').parse blob with
  | error e => rfl
  | ok b =>
      obtain ⟨hdecode, -⟩ := Handler.parse_eq_ok_iff.mp hparse
      have hkeys : (∃ path, credentials = .keyFile path) ∨ b.stretchCost ≠ none := by
        obtain hfile | hnone | ⟨other, hother, hcost⟩ := h
        · exact Or.inl hfile
        · exact absurd hdecode (hnone b)
        · rw [hdecode] at hother
          cases hother
          exact Or.inr hcost
      simp only [Handler.value_decrypt]
      rw [Handler.answer_new a.1 params params' files a.2.label hkeys]

/-- **The naive search reads the suites alone.** -/
theorem naive_attemptOf (h : credentials.Suffice blob) (params params' : Params)
    (attempts : List (SuiteDefinition × Phase)) :
    (attempts.map (attemptOf params)).findSome? (payload? files blob credentials)
        = (attempts.map (attemptOf params')).findSome? (payload? files blob credentials) ∧
      naiveRecords files blob credentials (attempts.map (attemptOf params))
        = naiveRecords files blob credentials (attempts.map (attemptOf params')) := by
  have halone := alone_attemptOf files h params params'
  have hpayload : payload? files blob credentials ∘ attemptOf params
      = payload? files blob credentials ∘ attemptOf params' := by
    funext a
    simp only [Function.comp, payload?, halone, suiteId_attemptOf]
  have hdown : turnedDown files blob credentials ∘ attemptOf params
      = turnedDown files blob credentials ∘ attemptOf params' := by
    funext a
    simp only [Function.comp, turnedDown, halone]
  have hrecord : recordOf files blob credentials ∘ attemptOf params
      = recordOf files blob credentials ∘ attemptOf params' := by
    funext a
    simp only [Function.comp, recordOf, halone, suiteId_attemptOf, phase_attemptOf]
  constructor
  · rw [List.findSome?_map, List.findSome?_map, hpayload]
  · rw [naiveRecords, naiveRecords, List.takeWhile_map, List.takeWhile_map, List.dropWhile_map,
      List.dropWhile_map, ← List.map_take, ← List.map_take, ← List.map_append, ← List.map_append,
      List.map_map, List.map_map, hdown, hrecord]

end

end Search

/-! ## Two services -/

namespace Service

variable {σ τ : Type}

/-- The attempts of a service, as the suites of its configuration give them. -/
theorem attempts_eq {c : Config} {w : World σ} (hw : w.registry.Follows c) (blob : Bytes) :
    w.attempts blob = (Search.suiteSequence (Bundle.suiteIdOf? blob) c.candidateSuites).map
      (Search.attemptOf c.params) := by
  rw [World.attempts, candidates_eq hw, Config.candidates_eq, Search.sequence_map]

/-- **A changed configuration affects new encryptions only.** Two services whose configurations
have the same order and the same entries for the ids in it come to the same answer by the same
attempts, whatever their active suites, parameters and other suites, if the keys for the blob are
found without the parameters. -/
theorem search_eq_of_same_suites {c c' : Config} {w : World σ} {w' : World τ}
    (hw : Registry.Built c w.registry) (hw' : Registry.Built c' w'.registry)
    (hfiles : w.files = w'.files) (horder : c.order = c'.order)
    (hentries : ∀ id ∈ c.order, c.suites.get? id = c'.suites.get? id) {blob : Bytes}
    {credentials : Credentials} (hkeys : credentials.Suffice blob) :
    ∃ outcome outcome' v v', (search blob credentials w).value = (.ok outcome, v) ∧
      (search blob credentials w').value = (.ok outcome', v') ∧
      outcome.result = outcome'.result ∧ outcome.records = outcome'.records ∧
      (decrypt blob credentials w).value.1 = (decrypt blob credentials w').value.1 := by
  obtain ⟨cache, r, hsearch, -⟩ := search_spec hw.follows blob credentials
  obtain ⟨cache', r', hsearch', -⟩ := search_spec hw'.follows blob credentials
  have hsuites := Config.candidateSuites_eq horder hentries
  obtain ⟨hpayload, hrecords⟩ := Search.naive_attemptOf w.files hkeys c.params c'.params
    (Search.suiteSequence (Bundle.suiteIdOf? blob) c.candidateSuites)
  rw [← attempts_eq hw.follows, hsuites, ← attempts_eq hw'.follows] at hpayload hrecords
  rw [hfiles] at hpayload hrecords hsearch
  refine ⟨_, _, _, _, hsearch, hsearch', ?_, hrecords, ?_⟩
  · rw [hpayload]
    rfl
  · rw [decrypt_spec hw.follows, decrypt_spec hw'.follows, Search.naiveResult, Search.naiveResult,
      hfiles, hpayload]

end Service

/-! ## A sample -/

/-- The sample that reads, with another active suite, cheaper parameters and a further suite that
is not in its order. -/
def sampleReaderReconfigured : Config where
  active := "current"
  order := ["archive", "current", "archive"]
  suites := ⟨[("archive", (sampleSuite "archive" .keyFile).info.names),
    ("current", (sampleSuite "current" .passphrase).info.names),
    ("unlisted", (sampleSuite "unlisted" .passphrase).info.names)], by decide⟩
  params := sampleParams

namespace Service

/-- A bundle of the suite `current` gets the same answer from the reader and from the reader with
another configuration. -/
theorem search_eq_of_same_suites_current : ∃ (w w' : World Unit) (b : Bundle) (blob : Bytes),
    Registry.Built sampleReader w.registry ∧
      Registry.Built sampleReaderReconfigured w'.registry ∧ w.files = w'.files ∧
      Bundle.decode blob = .ok b ∧ b.suiteId = "current" ∧ b.stretchCost ≠ none ∧
      ∃ outcome outcome' v v', (search blob (.passphrase "pw") w).value = (.ok outcome, v) ∧
        (search blob (.passphrase "pw") w').value = (.ok outcome', v') ∧
        outcome.result = outcome'.result ∧ outcome.records = outcome'.records ∧
        (decrypt blob (.passphrase "pw") w).value.1
          = (decrypt blob (.passphrase "pw") w').value.1 := by
  have hactive : sampleReader.suite? sampleReader.active
      = some (sampleSuite "archive" .keyFile) := rfl
  have hactive' : sampleReaderReconfigured.suite? sampleReaderReconfigured.active
      = some (sampleSuite "current" .passphrase) := rfl
  obtain ⟨r, hr⟩ := Registry.exists_ofConfig rfl hactive ()
  obtain ⟨r', hr'⟩ := Registry.exists_ofConfig rfl hactive' ()
  obtain ⟨x⟩ := nonempty_sealed_sample "current" rfl
  obtain ⟨blob, hblob⟩ := x.exists_encode (by decide)
  have hdecode : Bundle.decode blob = .ok x.bundle := Bundle.decode_of_encode rfl rfl hblob
  have hcost : x.bundle.stretchCost ≠ none := Option.some_ne_none _
  let w : World Unit := ⟨r, (), sampleStream, .emptyAt []⟩
  let w' : World Unit := ⟨r', (), sampleStream, .emptyAt []⟩
  have hentries : ∀ id ∈ sampleReader.order,
      sampleReader.suites.get? id = sampleReaderReconfigured.suites.get? id := by
    decide
  have hw : Registry.Built sampleReader w.registry := .ofConfig hr
  have hw' : Registry.Built sampleReaderReconfigured w'.registry := .ofConfig hr'
  exact ⟨w, w', x.bundle, blob, hw, hw', rfl, hdecode, rfl, hcost,
    search_eq_of_same_suites hw hw' rfl rfl hentries
      (Or.inr (Or.inr ⟨x.bundle, hdecode, hcost⟩))⟩

end Service

end AgileSeal
