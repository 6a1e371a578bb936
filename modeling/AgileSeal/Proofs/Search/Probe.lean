import AgileSeal.Proofs.Service.Opening

set_option autoImplicit false

/-! # The probe and the run

The probe (`Service.canDecrypt`) looks the id in the header up among the candidates; a search looks
it up again, for the attempt that it makes first. Because no two candidates have the same id, the two
agree (`canDecrypt_agrees`): the probe says yes exactly when the header names an id of the order
that resolves (`any_candidates_iff`), and exactly when the first record is targeted. The records of
a search are read off its attempts: they are a first part of them (`initial_naiveRecords`), and all
of them if nothing opens the bundle (`naiveRecords_of_error`).
-/

namespace AgileSeal

namespace Search

variable {files : FileSystem} {blob : Bytes} {credentials : Credentials}

/-! ## Records and attempts -/

/-- The records are those of the attempts up to a point. -/
theorem initial_naiveRecords (attempts : List (Handler × Phase)) :
    naiveRecords files blob credentials attempts
      <+: attempts.map (recordOf files blob credentials) := by
  rw [naiveRecords]
  refine List.IsPrefix.map _ ?_
  conv_rhs => rw [← attempts.takeWhile_append_dropWhile (p := turnedDown files blob credentials)]
  exact (List.prefix_append_right_inj _).mpr (List.take_prefix _ _)

/-- If nothing opens the bundle, every attempt has its record. -/
theorem naiveRecords_of_error {attempts : List (Handler × Phase)} {e : Error}
    (h : naiveResult files blob credentials attempts = .error e) :
    naiveRecords files blob credentials attempts
      = attempts.map (recordOf files blob credentials) := by
  induction attempts with
  | nil => rfl
  | cons a rest ih =>
      rw [naiveRecords_cons]
      cases halone : alone files blob credentials a with
      | ok plaintext =>
          rw [naiveResult, List.findSome?_cons, payload?_of_ok halone] at h
          cases h
      | error failure =>
          have hrest : naiveResult files blob credentials rest = .error e := by
            rwa [naiveResult, List.findSome?_cons, payload?_of_error halone] at h
          rw [if_pos (turnedDown_iff.mpr ⟨failure, halone⟩), ih hrest, List.map_cons]

/-- The records of attempts that are all made in spite of the label say so. -/
theorem fallback_of_mem_naiveRecords {hs : List Handler} {r : AttemptRecord}
    (hr : r ∈ naiveRecords files blob credentials (hs.map (·, .fallback))) :
    r.phase = .fallback := by
  have hmem := (initial_naiveRecords _).subset hr
  rw [List.map_map, List.mem_map] at hmem
  obtain ⟨h, -, rfl⟩ := hmem
  rfl

/-! ## Searches with and without a targeted attempt -/

/-- If the header names a candidate, its record comes first and is the only one that is
targeted. -/
theorem naiveRecords_of_named (files : FileSystem) (blob : Bytes) (credentials : Credentials)
    {cs : List Handler} (hn : (cs.map Handler.suiteId).Nodup) {h : Handler} (hmem : h ∈ cs) :
    ∃ first rest,
    naiveRecords files blob credentials (sequence (some h.suiteId) cs) = first :: rest ∧
      first.phase = .targeted ∧ first.suiteId = h.suiteId ∧ ∀ r ∈ rest, r.phase = .fallback := by
  rw [sequence_eq_of_named hn hmem, naiveRecords_cons]
  refine ⟨_, _, rfl, rfl, rfl, ?_⟩
  intro r hr
  split at hr
  · exact fallback_of_mem_naiveRecords hr
  · cases hr

/-- If the header names no candidate, all are attempted in their order, in spite of the label. -/
theorem sequence_of_stranger {label : Option String} {cs : List Handler}
    (h : ∀ other ∈ cs, some other.suiteId ≠ label) :
    sequence label cs = cs.map (·, .fallback) := by
  have hnone : (cs.filter fun other => some other.suiteId = label) = [] := by
    rw [List.filter_eq_nil_iff]
    simpa using h
  have hall : (cs.filter fun other => some other.suiteId ≠ label) = cs := by
    rw [List.filter_eq_self]
    simpa using h
  rw [sequence, hnone, hall, List.map_nil, List.nil_append]

/-- A search that finds nothing among attempts made in spite of the label records all
candidates. -/
theorem suiteIds_of_error {hs : List Handler} {e : Error}
    (h : naiveResult files blob credentials (hs.map (·, .fallback)) = .error e) :
    (naiveRecords files blob credentials (hs.map (·, .fallback))).map (·.suiteId)
      = hs.map Handler.suiteId := by
  rw [naiveRecords_of_error h, List.map_map, List.map_map]
  rfl

end Search

/-! ## The probe -/

/-- The ids of the candidates are those of the order that are answered with a handler. -/
theorem Config.mem_suiteIds {c : Config} {id : String} :
    id ∈ c.candidates.map Handler.suiteId ↔
      id ∈ c.order ∧ ∃ handler, c.answer id = .ok handler := by
  rw [candidates_suiteIds, List.mem_filter, List.mem_eraseDups]
  refine and_congr_right fun _ => ?_
  rw [answer]
  cases c.handler? id with
  | none =>
      refine iff_of_false Bool.false_ne_true ?_
      rintro ⟨handler, h⟩
      cases h
  | some handler => exact iff_of_true rfl ⟨handler, rfl⟩

namespace Service

variable {σ τ : Type}

/-- The probe looks the label up among the candidates. -/
theorem value_canDecrypt {c : Config} {w : World σ} (hw : w.registry.Follows c) (blob : Bytes) :
    ∃ r : Registry σ, (canDecrypt blob w).value
      = (.ok (c.candidates.any fun h => some h.suiteId = Bundle.suiteIdOf? blob),
        { w with registry := r }) := by
  rw [canDecrypt]
  cases Bundle.suiteIdOf? blob with
  | none =>
      refine ⟨w.registry, ?_⟩
      have hany : (c.candidates.any fun h => some h.suiteId = none) = false := by simp
      rw [hany]
      rfl
  | some id =>
      obtain ⟨r, hcs, -⟩ := hw.candidates w.factories
      refine ⟨r, ?_⟩
      rw [Stateful.value_bind_ok (Action.value_resolving hcs)]
      simp only [Option.some.injEq]
      rfl

/-- A label is found among the candidates if it is an id of the order that the service
resolves. -/
theorem any_candidates_iff {c : Config} {w : World σ} (hw : w.registry.Follows c)
    (label : Option String) : (c.candidates.any fun h => some h.suiteId = label) = true ↔
      ∃ id ∈ c.order, label = some id ∧ ∃ handler, (resolve id w).value.1 = .ok handler := by
  have hanswer : ∀ id, (resolve id w).value.1 = c.answer id := by
    intro id
    obtain ⟨r, hr⟩ := value_resolve hw id
    rw [hr]
  simp only [List.any_eq_true, decide_eq_true_eq, hanswer]
  constructor
  · rintro ⟨h, hmem, rfl⟩
    obtain ⟨horder, hresolves⟩ := Config.mem_suiteIds.mp (List.mem_map_of_mem hmem)
    exact ⟨h.suiteId, horder, rfl, hresolves⟩
  · rintro ⟨id, horder, rfl, hresolves⟩
    obtain ⟨h, hmem, rfl⟩ := List.mem_map.mp (Config.mem_suiteIds.mpr ⟨horder, hresolves⟩)
    exact ⟨h, hmem, rfl⟩

/-- The candidates are the ids of the order that the service resolves, each at its first place. -/
theorem candidates_resolve {c : Config} {w : World σ} (hw : w.registry.Follows c) :
    w.candidates.map Handler.suiteId
      = c.order.eraseDups.filter fun id => (resolve id w).value.1.isOk := by
  rw [candidates_eq hw, Config.candidates_suiteIds]
  refine List.filter_congr fun id _ => ?_
  obtain ⟨r, hr⟩ := value_resolve hw id
  rw [hr, Config.answer]
  cases c.handler? id <;> rfl

/-- The records of a search begin with a targeted one if the label is found among the candidates,
and only then. -/
theorem records_of_search {c : Config} {v : World τ} (hv : v.registry.Follows c) (blob : Bytes)
    (credentials : Credentials) :
    if (c.candidates.any fun h => some h.suiteId = Bundle.suiteIdOf? blob) then
      ∃ first rest, Search.naiveRecords v.files blob credentials (v.attempts blob)
          = first :: rest ∧ first.phase = .targeted ∧
        Bundle.suiteIdOf? blob = some first.suiteId ∧ ∀ r ∈ rest, r.phase = .fallback
    else v.attempts blob = v.candidates.map (·, .fallback) := by
  rw [World.attempts, candidates_eq hv]
  split
  · rename_i hnamed
    rw [List.any_eq_true] at hnamed
    obtain ⟨h, hmem, hlabel⟩ := hnamed
    obtain ⟨first, rest, hrecords, hphase, hid, hrest⟩ :=
      Search.naiveRecords_of_named v.files blob credentials c.nodup_candidates hmem
    rw [decide_eq_true_eq] at hlabel
    rw [← hlabel]
    exact ⟨first, rest, hrecords, hphase, congrArg some hid.symm, hrest⟩
  · rename_i hstranger
    refine Search.sequence_of_stranger ?_
    simpa using hstranger

/-- **The probe agrees with the run.** Take two services of one configuration, at any time in the
life of their registries: one probes a blob, the other searches it. The probe says yes exactly when
the header names an id of the order that resolves, and exactly when the first record is targeted;
then this record is of the suite in the header and no other is targeted. If the probe says no, no
record is targeted, and if decrypting fails the records are all candidates: the distinct ids of the
order that resolve, in this order. -/
theorem canDecrypt_agrees {c : Config} {w : World σ} {v : World τ}
    (hw : Registry.Built c w.registry) (hv : Registry.Built c v.registry) (blob : Bytes)
    (credentials : Credentials) : ∃ answer w' outcome v',
    (canDecrypt blob w).value = (.ok answer, w') ∧
      (search blob credentials v).value = (.ok outcome, v') ∧
      (decrypt blob credentials v).value = (outcome.result, v') ∧
      (answer = true ↔ ∃ id ∈ c.order, Bundle.suiteIdOf? blob = some id ∧
        ∃ handler, (resolve id w).value.1 = .ok handler) ∧
      (answer = true ↔ ∃ first ∈ outcome.records.head?, first.phase = .targeted) ∧
      (answer = true → ∃ first rest, outcome.records = first :: rest ∧ first.phase = .targeted ∧
        Bundle.suiteIdOf? blob = some first.suiteId ∧ ∀ r ∈ rest, r.phase = .fallback) ∧
      (answer = false → (∀ r ∈ outcome.records, r.phase = .fallback) ∧
        ∀ e, outcome.result = .error e →
          outcome.records.map (·.suiteId) = v.candidates.map Handler.suiteId ∧
          v.candidates.map Handler.suiteId
            = c.order.eraseDups.filter fun id => (resolve id v).value.1.isOk) := by
  obtain ⟨r, hprobe⟩ := value_canDecrypt hw.follows blob
  obtain ⟨cache, r', hsearch, -⟩ := search_spec hv.follows blob credentials
  have hresolves := any_candidates_iff hw.follows (Bundle.suiteIdOf? blob)
  have hrecords := records_of_search hv.follows blob credentials
  have hdecrypt := Stateful.value_bind_ok (f := fun o => Action.ofExcept o.result) hsearch
  refine ⟨_, _, _, _, hprobe, hsearch, hdecrypt, hresolves, ?_⟩
  cases hany : c.candidates.any fun h => some h.suiteId = Bundle.suiteIdOf? blob with
  | true =>
      rw [hany, if_pos rfl] at hrecords
      obtain ⟨first, rest, hfirst, hphase, hlabel, hrest⟩ := hrecords
      refine ⟨iff_of_true rfl ⟨first, ?_, hphase⟩, ?_, ?_⟩
      · simp only [hfirst, List.head?_cons, Option.mem_def]
      · intro _
        exact ⟨first, rest, hfirst, hphase, hlabel, hrest⟩
      · intro hno
        cases hno
  | false =>
      rw [hany, if_neg Bool.false_ne_true] at hrecords
      have hfallback : ∀ record ∈ Search.naiveRecords v.files blob credentials (v.attempts blob),
          record.phase = .fallback := by
        rw [hrecords]
        exact fun _ => Search.fallback_of_mem_naiveRecords
      refine ⟨iff_of_false Bool.false_ne_true ?_, ?_, fun _ => ⟨hfallback, ?_⟩⟩
      · rintro ⟨first, hfirst, hphase⟩
        have hmem := List.mem_of_mem_head? hfirst
        rw [hfallback first hmem] at hphase
        cases hphase
      · intro hyes
        cases hyes
      · intro e hfailed
        refine ⟨?_, candidates_resolve hv.follows⟩
        rw [hrecords]
        exact Search.suiteIds_of_error (hrecords ▸ hfailed)

/-- The sample reader recognizes a bare header, though nothing opens it, and tries the suite named
there first; it recognizes nothing in an empty blob. -/
theorem canDecrypt_agrees_bareHeader : ∃ w : World Unit,
    Registry.Built sampleReader w.registry ∧
      (canDecrypt bareHeader w).value.1 = .ok true ∧ (canDecrypt [] w).value.1 = .ok false ∧
      (∃ outcome w' first rest,
        (search bareHeader (.passphrase "pw") w).value = (.ok outcome, w') ∧
        outcome.records = first :: rest ∧ first.phase = .targeted ∧
        first.suiteId = "current") ∧
      ∃ outcome w', (search [] (.passphrase "pw") w).value = (.ok outcome, w') ∧
        ∀ r ∈ outcome.records, r.phase = .fallback := by
  obtain ⟨w, hw⟩ := exists_sampleReader
  have hlabel : Bundle.suiteIdOf? bareHeader = some "current" := by decide
  have hnone : Bundle.suiteIdOf? [] = none := by decide
  obtain ⟨r, hresolve⟩ := value_resolve hw.follows "current"
  refine ⟨w, hw, ?_⟩
  obtain ⟨yes, w₁, tried, v₁, hyes, htried, -, hyesiff, -, hfirst, -⟩ :=
    canDecrypt_agrees hw hw bareHeader (.passphrase "pw")
  obtain ⟨no, w₂, missed, v₂, hno, hmissed, -, hnoiff, -, -, hrest⟩ :=
    canDecrypt_agrees hw hw [] (.passphrase "pw")
  have htrue : yes = true := by
    refine hyesiff.mpr ⟨"current", by decide, hlabel, ?_⟩
    exact ⟨_, congrArg Prod.fst hresolve⟩
  have hfalse : no = false := by
    rw [← Bool.not_eq_true, hnoiff]
    rintro ⟨id, -, hid, -⟩
    rw [hnone] at hid
    cases hid
  refine ⟨?_, ?_, ?_, missed, v₂, hmissed, (hrest hfalse).1⟩
  · rw [hyes, htrue]
  · rw [hno, hfalse]
  · obtain ⟨first, rest, hrecords, hphase, hid, -⟩ := hfirst htrue
    rw [hlabel] at hid
    exact ⟨tried, v₁, first, rest, htried, hrecords, hphase, (Option.some.inj hid).symm⟩

end Service

end AgileSeal
