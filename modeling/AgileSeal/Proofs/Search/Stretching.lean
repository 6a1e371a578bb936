import AgileSeal.Proofs.Handler.Opening
import AgileSeal.Proofs.Search.Reconfigured
import AgileSeal.Proofs.Stretch.Calls

set_option autoImplicit false

/-! # What a search stretches

A bundle comes from anywhere, and stretching is made to be expensive, so a bundle must not decide
how much is stretched. A handler that does not turn a bundle down asks for one stretched key, for
the passphrase of the caller, the salt of the bundle and one cost (`Handler.source?`). All attempts
of a search share one cache, and it ends as these calls leave it (`Search.cache_tryAll`), so the
computations of a search are the different calls that succeed without a cache
(`Search.after_run`). For a bundle that records a cost all calls are the same; otherwise each of the
two functions has its own, from the parameters. So there are one or two computations, however many
candidates there are (`Service.search_stretches_little`).
-/

namespace AgileSeal

namespace Handler

/-- What a handler asks for when it opens a bundle: the passphrase of the caller, stretched with the
salt of the bundle. It asks for nothing if it turns the bundle down first. -/
def source? (h : Handler) (b : Bundle) (credentials : Credentials) (label : LabelMatch) :
    Option (String × Bytes × StretchCost) :=
  match h.refusal? b label, h, credentials with
  | none, .passphrase engine params, .passphrase text =>
    b.passphraseSalt.map fun salt => (text, salt, costOf engine params b)
  | _, _, _ => none

/-- Decryption leaves the cache as the call of the handler does. -/
theorem cache_decryptWith (h : Handler) (files : FileSystem) (b : Bundle)
    (credentials : Credentials) (label : LabelMatch) (cache : StretchCache) :
    (h.decryptWith files b credentials label cache).value.2
      = (cache.stretchAll (h.source? b credentials label).toList).2 := by
  unfold decryptWith source?
  cases h.refusal? b label with
  | some reason => rfl
  | none =>
      cases h with
      | keyFile engine =>
          cases credentials with
          | passphrase text => rfl
          | keyFile path =>
              simp only [keysFor]
              cases KeyFile.load files path engine.suite <;> rfl
      | passphrase engine params =>
          cases credentials with
          | keyFile path => rfl
          | passphrase text =>
              simp only [keysFor, passphraseKeys]
              cases b.passphraseSalt with
              | none => rfl
              | some salt =>
                  show _ = (cache.stretch text salt (costOf engine params b)).2
                  simp only
                  rcases cache.stretch text salt (costOf engine params b) with ⟨result, cache'⟩
                  cases result with
                  | error e => rfl
                  | ok stretched =>
                      simp only
                      cases KeyMaterial.ofStretched engine.suite stretched salt <;> rfl

/-- A suite stretches the passphrase of the caller with the salt of the bundle, at the cost that the
bundle records or else at the one of the parameters. -/
theorem source?_new {suite : SuiteDefinition} {params : Params} {b : Bundle}
    {credentials : Credentials} {label : LabelMatch} {source : String × Bytes × StretchCost} :
    (new suite params).source? b credentials label = some source ↔
      (new suite params).refusal? b label = none ∧ suite.mode = .passphrase ∧
      credentials = .passphrase source.1 ∧ b.passphraseSalt = some source.2.1 ∧
      b.stretchCost.getD (.ofParams suite.passphraseKdf params) = source.2.2 := by
  obtain ⟨text, salt, cost⟩ := source
  unfold source?
  cases (new suite params).refusal? b label with
  | some reason => simp
  | none =>
      cases hmode : suite.mode with
      | keyFile =>
          rw [new_of_keyFile hmode]
          simp
      | passphrase =>
          rw [new_of_passphrase hmode]
          cases credentials with
          | keyFile path => simp
          | passphrase text' =>
              simp only [Option.map_eq_some_iff, Prod.mk.injEq, Credentials.passphrase.injEq,
                true_and]
              constructor
              · rintro ⟨salt', hsalt, rfl, rfl, hcost⟩
                exact ⟨rfl, hsalt, hcost⟩
              · rintro ⟨rfl, hsalt, hcost⟩
                exact ⟨salt, hsalt, rfl, rfl, hcost⟩

end Handler

namespace Search

variable {files : FileSystem} {blob : Bytes} {credentials : Credentials}

/-- What an attempt asks for. -/
def source? (blob : Bytes) (credentials : Credentials) (a : Handler × Phase) :
    Option (String × Bytes × StretchCost) :=
  match a.1.parse blob with
  | .error _ => none
  | .ok b => a.1.source? b credentials a.2.label

/-- What attempts ask for, one after the other. -/
def sources (blob : Bytes) (credentials : Credentials) (attempts : List (Handler × Phase)) :
    List (String × Bytes × StretchCost) :=
  attempts.filterMap (source? blob credentials)

theorem sources_cons (blob : Bytes) (credentials : Credentials) (a : Handler × Phase)
    (rest : List (Handler × Phase)) : sources blob credentials (a :: rest)
      = (source? blob credentials a).toList ++ sources blob credentials rest := by
  unfold sources
  rw [List.filterMap_cons]
  cases source? blob credentials a <;> rfl

theorem cache_attempt (files : FileSystem) (blob : Bytes) (credentials : Credentials)
    (a : Handler × Phase) (cache : StretchCache) :
    (attempt a.1 files blob credentials a.2.label cache).value.2
      = (cache.stretchAll (source? blob credentials a).toList).2 := by
  unfold attempt source?
  cases a.1.parse blob with
  | error e => rfl
  | ok b => exact a.1.cache_decryptWith files b credentials a.2.label cache

/-- **Attempts in a row** leave the cache that they share as their calls do, those of the attempts
that are made. -/
theorem cache_tryAll (files : FileSystem) (blob : Bytes) (credentials : Credentials)
    (attempts : List (Handler × Phase)) (cache : StretchCache) :
    (tryAll files blob credentials attempts cache).value.cache
      = (cache.stretchAll (sources blob credentials (attempts.take
          (tryAll files blob credentials attempts cache).value.records.length))).2 := by
  induction attempts generalizing cache with
  | nil => rfl
  | cons a rest ih =>
      have hfirst := cache_attempt files blob credentials a cache
      unfold tryAll
      rcases hv : (attempt a.1 files blob credentials a.2.label cache).value with ⟨result, cache'⟩
      rw [hv] at hfirst
      change cache' = _ at hfirst
      simp only [Logged.value_bind, hv]
      cases result with
      | ok plaintext =>
          -- the search is over, and this attempt is the only one
          show cache' = (cache.stretchAll (sources blob credentials [a])).2
          rw [sources_cons, StretchCache.stretchAll_append, ← hfirst]
          rfl
      | error failure =>
          show (tryAll files blob credentials rest cache').value.cache
            = (cache.stretchAll (sources blob credentials (a :: rest.take
                (tryAll files blob credentials rest cache').value.records.length))).2
          rw [ih, sources_cons, StretchCache.stretchAll_append, ← hfirst]

/-- **The cache of a search** that starts with nothing stretched is one after the calls of the
attempts that are made. -/
theorem after_run (files : FileSystem) {cs : List Handler} (hn : (cs.map Handler.suiteId).Nodup)
    (blob : Bytes) (credentials : Credentials) :
    (run files cs blob credentials .empty).value.cache.After (sources blob credentials
      ((sequence (Bundle.suiteIdOf? blob) cs).take
        (run files cs blob credentials .empty).value.records.length)) := by
  rw [value_run, plan_eq_sequence _ hn, cache_tryAll]
  exact (StretchCache.after_empty.stretchAll _).2

end Search

/-! ## Costs -/

namespace Bundle

/-- The costs at which a bundle may be opened: the recorded one, or those that parameters set for
the two functions. -/
def costs (b : Bundle) (params : Params) : List StretchCost :=
  match b.stretchCost with
  | some cost => [cost]
  | none => [.ofParams .argon2id params, .ofParams .pbkdf2Sha256 params]

theorem mem_costs (b : Bundle) (params : Params) (kdf : PassphraseKdf) :
    b.stretchCost.getD (.ofParams kdf params) ∈ b.costs params := by
  unfold costs
  cases b.stretchCost with
  | some cost => exact List.mem_singleton_self cost
  | none => cases kdf <;> simp

theorem length_costs_le (b : Bundle) (params : Params) : (b.costs params).length ≤ 2 := by
  unfold costs
  cases b.stretchCost <;> simp

theorem length_costs_of_recorded {b : Bundle} (h : b.stretchCost ≠ none) (params : Params) :
    (b.costs params).length = 1 := by
  obtain ⟨cost, hcost⟩ := Option.ne_none_iff_exists'.mp h
  simp [costs, hcost]

/-- A recorded cost is one of the function of the suite whose form the bundle has. -/
theorem kdf_of_defect? {b : Bundle} {suite : SuiteDefinition} (hform : b.defect? suite = none)
    (params : Params) :
    (b.stretchCost.getD (.ofParams suite.passphraseKdf params)).kdf = suite.passphraseKdf := by
  obtain ⟨-, -, -, hcost⟩ := defect?_eq_none_iff.mp hform
  cases hrecorded : b.stretchCost with
  | none => exact StretchCost.kdf_ofParams _ _
  | some cost =>
      rw [hrecorded, costDefect?_eq_none_iff] at hcost
      exact hcost.2.1

end Bundle

/-! ## The bound -/

/-- Work that a search may do: what it stretches is the passphrase of the caller with the salt of
the bundle, at a cost within the limits and with the function of a candidate. -/
structure StretchEntry.Warranted (e : StretchEntry) (candidates : List Handler) (blob : Bytes)
    (credentials : Credentials) : Prop where
  caller : credentials = .passphrase e.passphrase
  nonempty : e.passphrase ≠ ""
  bundle : ∃ b, Bundle.decode blob = .ok b ∧ b.passphraseSalt = some e.salt
  salted : 16 ≤ e.salt.length
  limited : e.cost.withinLimits = true
  candidate : ∃ h ∈ candidates, h.suite.mode = .passphrase ∧ h.suite.passphraseKdf = e.cost.kdf

/-- What may be asked for: the passphrase of the caller with the salt of the bundle, at each of the
costs. -/
def Bundle.sources (b : Bundle) (params : Params) :
    Credentials → List (String × Bytes × StretchCost)
  | .keyFile _ => []
  | .passphrase text =>
      match b.passphraseSalt with
      | none => []
      | some salt => (b.costs params).map fun cost => (text, salt, cost)

theorem Bundle.length_sources_le (b : Bundle) (params : Params) (credentials : Credentials) :
    (b.sources params credentials).length ≤ (b.costs params).length := by
  unfold sources
  cases credentials with
  | keyFile path => exact Nat.zero_le _
  | passphrase text =>
      cases b.passphraseSalt with
      | none => exact Nat.zero_le _
      | some salt => exact Nat.le_of_eq (List.length_map _)

namespace Search

variable {c : Config} {blob : Bytes} {credentials : Credentials}
  {attempts : List (Handler × Phase)} {source : String × Bytes × StretchCost}

/-- What the candidates of a configuration ask for is one of the things that the bundle allows, and
its function is that of a candidate. -/
theorem mem_sources (hcandidates : ∀ a ∈ attempts, a.1 ∈ c.candidates)
    (h : source ∈ sources blob credentials attempts) :
    (∃ b, Bundle.decode blob = .ok b ∧ b.passphraseSalt = some source.2.1 ∧
      source ∈ b.sources c.params credentials) ∧
    credentials = .passphrase source.1 ∧
    ∃ h ∈ c.candidates, h.suite.mode = .passphrase ∧
      h.suite.passphraseKdf = source.2.2.kdf := by
  obtain ⟨⟨handler, phase⟩, hmem, hsource⟩ := List.mem_filterMap.mp h
  have hcandidate := hcandidates _ hmem
  obtain ⟨suite, -, rfl⟩ := List.mem_map.mp (Config.candidates_eq c ▸ hcandidate)
  obtain ⟨text, salt, cost⟩ := source
  unfold source? at hsource
  cases hparse : (Handler.new suite c.params).parse blob with
  | error e =>
      simp only [hparse] at hsource
      cases hsource
  | ok b =>
      simp only [hparse] at hsource
      obtain ⟨-, hmode, rfl, hsalt, rfl⟩ := Handler.source?_new.mp hsource
      obtain ⟨hdecode, hform⟩ := Handler.parse_eq_ok_iff.mp hparse
      rw [Handler.suite_new] at hform
      refine ⟨⟨b, hdecode, hsalt, ?_⟩, rfl, _, hcandidate, ?_⟩
      · simp only [Bundle.sources, hsalt]
        exact List.mem_map_of_mem (b.mem_costs c.params _)
      · rw [Handler.suite_new]
        exact ⟨hmode, (Bundle.kdf_of_defect? hform c.params).symm⟩

/-- There are at most as many computations as costs. -/
theorem computations_le_costs (hcandidates : ∀ a ∈ attempts, a.1 ∈ c.candidates) {b : Bundle}
    (hdecode : Bundle.decode blob = .ok b) (p : String × Bytes × StretchCost → Bool) :
    ((sources blob credentials attempts).filter p).toFinset.card ≤ (b.costs c.params).length := by
  calc ((sources blob credentials attempts).filter p).toFinset.card
      ≤ (b.sources c.params credentials).toFinset.card := by
        refine Finset.card_le_card fun source hsource => ?_
        obtain ⟨hmem, -⟩ := List.mem_filter.mp (List.mem_toFinset.mp hsource)
        obtain ⟨⟨found, hfound, -, hcost⟩, -⟩ := mem_sources hcandidates hmem
        cases hdecode.symm.trans hfound
        exact List.mem_toFinset.mpr hcost
    _ ≤ (b.sources c.params credentials).length := List.toFinset_card_le _
    _ ≤ (b.costs c.params).length := b.length_sources_le c.params credentials

/-- Nothing is asked for without something to stretch. -/
theorem sources_eq_nil (hcandidates : ∀ a ∈ attempts, a.1 ∈ c.candidates)
    (hnone : (∀ b, Bundle.decode blob ≠ .ok b) ∨ ∃ path, credentials = .keyFile path) :
    sources blob credentials attempts = [] := by
  refine List.eq_nil_iff_forall_not_mem.mpr fun source h => ?_
  obtain ⟨⟨b, hdecode, -⟩, hcaller, -⟩ := mem_sources hcandidates h
  rcases hnone with hnone | ⟨path, hpath⟩
  · exact hnone b hdecode
  · cases hcaller.symm.trans hpath

end Search

namespace Service

variable {σ : Type}

/-- **A bundle cannot buy stretching.** At any time in the life of a registry that was built from a
configuration, everything that a search computes is warranted, and it is counted: the count is the
number of different calls of the attempts that were made which succeed without a cache. There is at
most one computation if the bundle records its cost and there are at most two otherwise; there is
none if the blob is no bundle or the keys come from a file. -/
theorem search_stretches_little {c : Config} {w : World σ} (hw : Registry.Built c w.registry)
    (blob : Bytes) (credentials : Credentials) :
    ∃ outcome w', (search blob credentials w).value = (.ok outcome, w') ∧
      outcome.cache.stretches = outcome.cache.entries.length ∧
      outcome.cache.stretches = ((Search.sources blob credentials
        ((w.attempts blob).take outcome.records.length)).filter
          fun source => (stretchSource source).isOk).toFinset.card ∧
      (∀ e ∈ outcome.cache.entries, e.Warranted w.candidates blob credentials) ∧
      outcome.cache.stretches ≤ 2 ∧
      (∀ b, Bundle.decode blob = .ok b → b.stretchCost ≠ none → outcome.cache.stretches ≤ 1) ∧
      ((∀ b, Bundle.decode blob ≠ .ok b) ∨ (∃ path, credentials = .keyFile path) →
        outcome.cache.stretches = 0) := by
  obtain ⟨r, hcs, -⟩ := hw.follows.candidates w.factories
  have hafter := Search.after_run w.files c.nodup_candidates blob credentials
  rw [World.attempts, candidates_eq hw.follows]
  have hcandidates : ∀ a ∈ (Search.sequence (Bundle.suiteIdOf? blob) c.candidates).take
      (Search.run w.files c.candidates blob credentials .empty).value.records.length,
      a.1 ∈ c.candidates := fun a ha =>
    (Search.mem_sequence.mp (List.mem_of_mem_take ha)).1
  refine ⟨_, _, value_search hcs blob credentials, hafter.accounts.counted, hafter.stretches_eq,
    fun e he => ?_, ?_, fun b hdecode hrecorded => ?_, fun hnone => ?_⟩
  · obtain ⟨hmem, hok⟩ := (hafter.held e.source).mp (List.mem_map_of_mem he)
    obtain ⟨⟨b, hdecode, hsalt, -⟩, hcaller, hcandidate⟩ := Search.mem_sources hcandidates hmem
    obtain ⟨hnonempty, hlength, hlimits, -⟩ := stretchPassphrase_eq_ok_iff.mp (hafter.sound e he)
    exact ⟨hcaller, hnonempty, ⟨b, hdecode, hsalt⟩, hlength, hlimits, hcandidate⟩
  · rw [hafter.stretches_eq]
    cases hdecode : Bundle.decode blob with
    | error e =>
        have hnone : ∀ b, Bundle.decode blob ≠ .ok b := by
          intro b hb
          rw [hdecode] at hb
          cases hb
        rw [Search.sources_eq_nil hcandidates (.inl hnone)]
        exact Nat.zero_le 2
    | ok b =>
        exact Nat.le_trans (Search.computations_le_costs hcandidates hdecode _)
          (b.length_costs_le c.params)
  · rw [hafter.stretches_eq, ← Bundle.length_costs_of_recorded hrecorded c.params]
    exact Search.computations_le_costs hcandidates hdecode _
  · rw [hafter.stretches_eq, Search.sources_eq_nil hcandidates hnone]
    rfl

/-- What a candidate asks for that reads the bundle of a sample. -/
theorem source?_sample {suite : SuiteDefinition} {phase : Phase} {blob : Bytes}
    (x : Handler.Sealed (sampleSuite "current" .passphrase) sampleParams "pw" sampleText
      sampleStream)
    (hmode : suite.mode = .passphrase)
    (hparse : (Handler.new suite .default).parse blob = .ok x.bundle)
    (hlabel : ¬(phase.label = .exact ∧
      x.bundle.suiteId ≠ (Handler.new suite .default).suiteId)) :
    Search.source? blob (.passphrase "pw") (.new suite .default, phase)
      = some ("pw", (sampleStream.draw sampleParams.saltLength.toNat).1,
        .ofParams .pbkdf2Sha256 sampleParams) := by
  have hrefusal := Handler.refusal?_eq_none_iff.mpr
    ⟨hlabel, (Handler.parse_eq_ok_iff.mp hparse).2⟩
  simp only [Search.source?, hparse]
  exact Handler.source?_new.mpr
    ⟨hrefusal, hmode, rfl, KeyMaterial.passphraseSalt_ofStretched x.expand, rfl⟩

/-- Both candidates of the sample ask for the same key, and it is computed once. -/
theorem search_stretches_little_redefined : ∃ (w w' : World Unit) (blob : Bytes)
    (outcome : Search.Outcome), Registry.Built sampleRedefined w.registry ∧
      (search blob (.passphrase "pw") w).value = (.ok outcome, w') ∧
      outcome.records.length = 2 ∧
      (Search.sources blob (.passphrase "pw") ((w.attempts blob).take 2)).length = 2 ∧
      (∀ e ∈ outcome.cache.entries, e.Warranted w.candidates blob (.passphrase "pw")) ∧
      outcome.cache.stretches = 1 := by
  obtain ⟨w, blob, x, hbuilt, hblob, hattempts⟩ := exists_redefined
  obtain ⟨outcome, w', hsearch, -, hcount, hwarranted, -⟩ :=
    search_stretches_little hbuilt blob (.passphrase "pw")
  have hlength : outcome.records.length = 2 := by
    obtain ⟨cache, r, hspec, -⟩ := search_spec hbuilt.follows blob (.passphrase "pw")
    cases hsearch.symm.trans hspec
    rw [hattempts, (naive_redefined hblob w.files).2]
    rfl
  let source : String × Bytes × StretchCost :=
    ("pw", (sampleStream.draw sampleParams.saltLength.toNat).1,
      .ofParams .pbkdf2Sha256 sampleParams)
  have hsources : Search.sources blob (.passphrase "pw") ((w.attempts blob).take 2)
      = [source, source] := by
    have hrival : Search.source? blob (.passphrase "pw") (.new sampleRival .default, .targeted)
        = some source :=
      source?_sample x rfl (x.parse hblob "current" .default) fun hforeign => hforeign.2 rfl
    have harchive : Search.source? blob (.passphrase "pw")
        (.new (sampleSuite "archive" .passphrase) .default, .fallback) = some source :=
      source?_sample x rfl (x.parse hblob "archive" .default) fun hexact => by cases hexact.1
    rw [hattempts]
    show Search.sources blob (.passphrase "pw") redefinedAttempts = _
    rw [redefinedAttempts, Search.sources_cons, Search.sources_cons, hrival, harchive]
    rfl
  refine ⟨w, w', blob, outcome, hbuilt, hsearch, hlength, congrArg List.length hsources,
    hwarranted, ?_⟩
  have hok : (stretchSource source).isOk = true := congrArg Except.isOk x.stretch
  have hall : [source, source].filter (fun source => (stretchSource source).isOk)
      = [source, source] := by simp [hok]
  rw [hcount, hlength, hsources, hall]
  simp

end Service

end AgileSeal
