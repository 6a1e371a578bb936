import AgileSeal.Proofs.Engine.Refusals
import AgileSeal.Proofs.Handler.Opening
import AgileSeal.Proofs.Search.Naive
import AgileSeal.Proofs.Stretch.Held

set_option autoImplicit false

/-! # What a search reports of a passphrase

Two passphrases are compared that are stretched alike. The caches of the two searches hold the same
at any time, so both stretch equally often. An attempt reports the same for both if it succeeds for
both or for none and Diffie-Hellman refuses neither (`Search.attempt_alike`). From this it follows
by induction on the attempts that the searches report the same if their records are the same
(`Search.run_alike`).
-/

namespace AgileSeal

/-! ## Handlers -/

namespace Handler

variable {text text' : String} {cache cache' : StretchCache}
  {sources : List (Bytes × StretchCost)}

/-- A handler finds keys for two passphrases that are stretched alike, or finds none for the same
reason. -/
theorem keysFor_alike (h : Handler) (files : FileSystem) (b : Bundle)
    (hc : cache.Holds text sources) (hc' : cache'.Holds text' sources)
    (hstretch : ∀ salt cost,
      Alike (stretchPassphrase text salt cost) (stretchPassphrase text' salt cost)) :
    Alike (h.keysFor files b (.passphrase text) cache).1
        (h.keysFor files b (.passphrase text') cache').1 ∧ ∃ sources',
      (h.keysFor files b (.passphrase text) cache).2.Holds text sources' ∧
        (h.keysFor files b (.passphrase text') cache').2.Holds text' sources' := by
  cases h with
  | keyFile engine => exact ⟨.inr ⟨_, rfl, rfl⟩, sources, hc, hc'⟩
  | passphrase engine params =>
      show Alike (passphraseKeys engine params b text cache).1
          (passphraseKeys engine params b text' cache').1 ∧ ∃ sources',
        (passphraseKeys engine params b text cache).2.Holds text sources' ∧
          (passphraseKeys engine params b text' cache').2.Holds text' sources'
      unfold passphraseKeys
      cases b.passphraseSalt with
      | none => exact ⟨.inr ⟨_, rfl, rfl⟩, sources, hc, hc'⟩
      | some salt =>
          obtain ⟨halike, sources', hheld, hheld'⟩ :=
            hc.stretch_alike hc' (hstretch salt (costOf engine params b))
          simp only
          rcases hv : cache.stretch text salt (costOf engine params b) with ⟨result, next⟩
          rcases hv' : cache'.stretch text' salt (costOf engine params b) with ⟨result', next'⟩
          rw [hv] at halike hheld
          rw [hv'] at halike hheld'
          rcases halike with ⟨stretched, stretched', rfl, rfl⟩ | ⟨e, rfl, rfl⟩
          · obtain ⟨keys, hkeys⟩ := KeyMaterial.exists_ofStretched engine.suite stretched salt
            obtain ⟨keys', hkeys'⟩ := KeyMaterial.exists_ofStretched engine.suite stretched' salt
            exact ⟨.inl ⟨keys, keys', mapError_eq_ok_iff.mpr hkeys, mapError_eq_ok_iff.mpr hkeys'⟩,
              sources', hheld, hheld'⟩
          · exact ⟨.inr ⟨_, rfl, rfl⟩, sources', hheld, hheld'⟩

/-- A handler reports the same of two passphrases that are stretched alike, if it succeeds for both
or for none and Diffie-Hellman refuses neither. -/
theorem decryptWith_alike (h : Handler) (files : FileSystem) (b : Bundle) (label : LabelMatch)
    (hc : cache.Holds text sources) (hc' : cache'.Holds text' sources)
    (hstretch : ∀ salt cost,
      Alike (stretchPassphrase text salt cost) (stretchPassphrase text' salt cost))
    (hcontributory : ∀ keys, h.material files b (.passphrase text) = .ok keys →
      ¬h.engine.NonContributory b keys)
    (hcontributory' : ∀ keys, h.material files b (.passphrase text') = .ok keys →
      ¬h.engine.NonContributory b keys)
    (hsame : (h.answer files b (.passphrase text) label).isOk
      = (h.answer files b (.passphrase text') label).isOk) :
    (h.decryptWith files b (.passphrase text) label cache).events
        = (h.decryptWith files b (.passphrase text') label cache').events ∧ ∃ sources',
      (h.decryptWith files b (.passphrase text) label cache).value.2.Holds text sources' ∧
        (h.decryptWith files b (.passphrase text') label cache').value.2.Holds text' sources' := by
  unfold decryptWith
  cases hrefusal : h.refusal? b label with
  | some reason => exact ⟨rfl, sources, hc, hc'⟩
  | none =>
      obtain ⟨halike, sources', hheld, hheld'⟩ := h.keysFor_alike files b hc hc' hstretch
      obtain ⟨next, hkeys, -⟩ := h.keysFor_spec files b (.passphrase text) hc.sound
      obtain ⟨next', hkeys', -⟩ := h.keysFor_spec files b (.passphrase text') hc'.sound
      rw [hkeys] at halike hheld
      rw [hkeys'] at halike hheld'
      simp only [hkeys, hkeys']
      rcases halike with ⟨keys, keys', (hfound : h.material files b (.passphrase text) = .ok keys),
          (hfound' : h.material files b (.passphrase text') = .ok keys')⟩ |
        ⟨reason, (hfail : h.material files b (.passphrase text) = .error reason),
          (hfail' : h.material files b (.passphrase text') = .error reason)⟩
      · obtain ⟨hlabel, hform⟩ := refusal?_eq_none_iff.mp hrefusal
        obtain ⟨hfits, hprivate⟩ := fits_of_material hfound
        obtain ⟨hfits', hprivate'⟩ := fits_of_material hfound'
        rw [isOk_answer hrefusal hfound, isOk_answer hrefusal hfound'] at hsame
        have hevents := Engine.events_decrypt_eq hlabel hform hfits hfits' hprivate hprivate'
          (hcontributory keys hfound) (hcontributory' keys' hfound') hsame
        rw [hfound, hfound']
        refine ⟨?_, sources', hheld, hheld'⟩
        show (h.engine.decrypt b keys label).events ++ []
          = (h.engine.decrypt b keys' label).events ++ []
        rw [hevents]
      · rw [hfail, hfail']
        exact ⟨rfl, sources', hheld, hheld'⟩

end Handler

/-! ## Attempts -/

namespace Search

/-- Diffie-Hellman refuses the secret of an attempt. -/
def NonContributory (files : FileSystem) (blob : Bytes) (credentials : Credentials)
    (a : Handler × Phase) : Prop :=
  ∃ b keys, a.1.parse blob = .ok b ∧ a.1.material files b credentials = .ok keys ∧
    a.1.engine.NonContributory b keys

variable {text text' : String} {cache cache' : StretchCache}
  {sources : List (Bytes × StretchCost)} {files : FileSystem} {blob : Bytes}

/-- An attempt on a bundle that the handler can read ends as the handler answers. -/
theorem isOk_alone {credentials : Credentials} {a : Handler × Phase} {b : Bundle}
    (hparse : a.1.parse blob = .ok b) : (alone files blob credentials a).isOk
      = (a.1.answer files b credentials a.2.label).isOk := by
  unfold alone
  rw [hparse]
  simp only [Handler.value_decrypt]
  cases a.1.answer files b credentials a.2.label <;> rfl

/-- **An attempt** reports the same of two passphrases that are stretched alike. -/
theorem attempt_alike (a : Handler × Phase) (hc : cache.Holds text sources)
    (hc' : cache'.Holds text' sources)
    (hstretch : ∀ salt cost,
      Alike (stretchPassphrase text salt cost) (stretchPassphrase text' salt cost))
    (hcontributory : ¬NonContributory files blob (.passphrase text) a)
    (hcontributory' : ¬NonContributory files blob (.passphrase text') a)
    (hsame : (alone files blob (.passphrase text) a).isOk
      = (alone files blob (.passphrase text') a).isOk) :
    (attempt a.1 files blob (.passphrase text) a.2.label cache).events
        = (attempt a.1 files blob (.passphrase text') a.2.label cache').events ∧ ∃ sources',
      (attempt a.1 files blob (.passphrase text) a.2.label cache).value.2.Holds text sources' ∧
        (attempt a.1 files blob (.passphrase text') a.2.label cache').value.2.Holds text'
          sources' := by
  unfold attempt
  cases hparse : a.1.parse blob with
  | error e => exact ⟨rfl, sources, hc, hc'⟩
  | ok b =>
      rw [isOk_alone hparse, isOk_alone hparse] at hsame
      obtain ⟨hevents, sources', hheld, hheld'⟩ :=
        a.1.decryptWith_alike files b a.2.label hc hc' hstretch
          (fun keys hkeys hrefused => hcontributory ⟨b, keys, hparse, hkeys, hrefused⟩)
          (fun keys hkeys hrefused => hcontributory' ⟨b, keys, hparse, hkeys, hrefused⟩) hsame
      refine ⟨?_, sources', hheld, hheld'⟩
      show (a.1.decryptWith files b (.passphrase text) a.2.label cache).events ++ []
        = (a.1.decryptWith files b (.passphrase text') a.2.label cache').events ++ []
      rw [hevents]

/-- Attempts with the same record succeed together. -/
theorem isOk_alone_of_failure {credentials credentials' : Credentials} {a : Handler × Phase}
    (h : (recordOf files blob credentials a).failure
      = (recordOf files blob credentials' a).failure) :
    (alone files blob credentials a).isOk = (alone files blob credentials' a).isOk := by
  have hisOk : ∀ credentials, (alone files blob credentials a).isOk
      = (recordOf files blob credentials a).failure.isNone := by
    intro credentials
    unfold recordOf
    cases alone files blob credentials a <;> rfl
  rw [hisOk, hisOk, h]

/-- **Attempts in a row** report the same of two passphrases that are stretched alike and leave the
same records, and the caches hold the same in the end. -/
theorem tryAll_alike (attempts : List (Handler × Phase)) (hc : cache.Holds text sources)
    (hc' : cache'.Holds text' sources)
    (hstretch : ∀ salt cost,
      Alike (stretchPassphrase text salt cost) (stretchPassphrase text' salt cost))
    (hrecords : naiveRecords files blob (.passphrase text) attempts
      = naiveRecords files blob (.passphrase text') attempts)
    (hcontributory : ∀ a ∈ attempts.take
        (naiveRecords files blob (.passphrase text) attempts).length,
      ¬NonContributory files blob (.passphrase text) a ∧
        ¬NonContributory files blob (.passphrase text') a) :
    (tryAll files blob (.passphrase text) attempts cache).events
        = (tryAll files blob (.passphrase text') attempts cache').events ∧
      (tryAll files blob (.passphrase text) attempts cache).value.payload.isNone
        = (tryAll files blob (.passphrase text') attempts cache').value.payload.isNone ∧
      ∃ sources',
        (tryAll files blob (.passphrase text) attempts cache).value.cache.Holds text sources' ∧
          (tryAll files blob (.passphrase text') attempts cache').value.cache.Holds text'
            sources' := by
  induction attempts generalizing cache cache' sources with
  | nil => exact ⟨rfl, rfl, sources, hc, hc'⟩
  | cons a rest ih =>
      obtain ⟨h, phase⟩ := a
      rw [naiveRecords_cons, naiveRecords_cons] at hrecords
      obtain ⟨hhead, htail⟩ := List.cons.inj hrecords
      have hfailure := congrArg AttemptRecord.failure hhead
      rw [naiveRecords_cons, List.length_cons, List.take_succ_cons] at hcontributory
      obtain ⟨hfirst, hfirst'⟩ := hcontributory (h, phase) List.mem_cons_self
      have hsame := isOk_alone_of_failure hfailure
      obtain ⟨hevents, sources₁, hheld, hheld'⟩ :=
        attempt_alike (h, phase) hc hc' hstretch hfirst hfirst' hsame
      obtain ⟨next, hvalue, -⟩ := attempt_spec files blob (.passphrase text) (h, phase) hc.sound
      obtain ⟨next', hvalue', -⟩ :=
        attempt_spec files blob (.passphrase text') (h, phase) hc'.sound
      rw [hvalue] at hheld
      rw [hvalue'] at hheld'
      unfold tryAll
      simp only [Logged.events_bind, Logged.value_bind, hvalue, hvalue']
      rcases ok_or_error_of_isOk_eq hsame with ⟨plaintext, plaintext', hopens, hopens'⟩ |
        ⟨failure, failure', hfails, hfails'⟩
      · rw [hopens, hopens']
        refine ⟨?_, rfl, sources₁, hheld, hheld'⟩
        rw [hevents]
        rfl
      · rw [recordOf_of_error hfails, recordOf_of_error hfails'] at hfailure
        cases Option.some.inj hfailure
        rw [if_pos (turnedDown_iff.mpr ⟨failure, hfails⟩),
          if_pos (turnedDown_iff.mpr ⟨failure, hfails'⟩)] at htail
        rw [if_pos (turnedDown_iff.mpr ⟨failure, hfails⟩)] at hcontributory
        obtain ⟨hlater, hnone, sources₂, hfinal, hfinal'⟩ := ih hheld hheld' htail
          fun a ha => hcontributory a (List.mem_cons_of_mem _ ha)
        rw [hfails, hfails']
        refine ⟨?_, hnone, sources₂, hfinal, hfinal'⟩
        simp only [Logged.events_bind, Logged.events_pure, List.append_nil]
        rw [hevents, hlater]

/-- What a search reports: a header that cannot be read, the attempts, and that none succeeded. -/
theorem events_run (files : FileSystem) (cs : List Handler) (blob : Bytes)
    (credentials : Credentials) (cache : StretchCache) :
    (run files cs blob credentials cache).events = (labelOf blob).events ++
      ((tryAll files blob credentials (plan (Bundle.suiteIdOf? blob) cs) cache).events ++
        if (run files cs blob credentials cache).value.payload.isNone then
          [exhausted (run files cs blob credentials cache).value.records
            (run files cs blob credentials cache).value.cache]
        else []) := by
  rw [value_run, run, ← value_labelOf]
  simp only [Logged.events_bind]
  split <;> rfl

/-- **A search** reports the same of two passphrases that are stretched alike and leave the same
records, and it stretches them equally often. -/
theorem run_alike (files : FileSystem) {cs : List Handler} (hn : (cs.map Handler.suiteId).Nodup)
    (blob : Bytes)
    (hstretch : ∀ salt cost,
      Alike (stretchPassphrase text salt cost) (stretchPassphrase text' salt cost))
    (hrecords : (run files cs blob (.passphrase text) .empty).value.records
      = (run files cs blob (.passphrase text') .empty).value.records)
    (hcontributory : ∀ a ∈ (sequence (Bundle.suiteIdOf? blob) cs).take
        (run files cs blob (.passphrase text) .empty).value.records.length,
      ¬NonContributory files blob (.passphrase text) a ∧
        ¬NonContributory files blob (.passphrase text') a) :
    (run files cs blob (.passphrase text) .empty).events
        = (run files cs blob (.passphrase text') .empty).events ∧
      (run files cs blob (.passphrase text) .empty).value.cache.stretches
        = (run files cs blob (.passphrase text') .empty).value.cache.stretches := by
  have hnaive : ∀ credentials, (run files cs blob credentials .empty).value.records
      = naiveRecords files blob credentials (sequence (Bundle.suiteIdOf? blob) cs) := by
    intro credentials
    obtain ⟨last, hrun, -⟩ := run_spec files hn blob credentials StretchCache.sound_empty
    rw [hrun]
  have hrecords' := hrecords
  rw [hnaive, hnaive] at hrecords'
  rw [hnaive] at hcontributory
  obtain ⟨hevents, hnone, sources, hheld, hheld'⟩ :=
    tryAll_alike (sequence (Bundle.suiteIdOf? blob) cs) (StretchCache.holds_empty text)
      (StretchCache.holds_empty text') hstretch hrecords' hcontributory
  rw [← plan_eq_sequence _ hn] at hevents hnone hheld hheld'
  rw [← value_run] at hheld hheld'
  rw [← value_run, ← value_run] at hnone
  have hcount : (run files cs blob (.passphrase text) .empty).value.cache.stretches
      = (run files cs blob (.passphrase text') .empty).value.cache.stretches :=
    hheld.counted.trans hheld'.counted.symm
  refine ⟨?_, hcount⟩
  rw [events_run, events_run, hevents, hnone, hrecords, exhausted, exhausted, hcount]

end Search

end AgileSeal
