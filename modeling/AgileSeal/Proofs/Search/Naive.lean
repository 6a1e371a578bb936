import AgileSeal.Proofs.Engine.Labels
import AgileSeal.Proofs.Handler.Opening
import AgileSeal.Service

set_option autoImplicit false

/-! # The search is the naive search

The naive search takes the attempts in order (`sequence`: the candidate that the header names,
with the label, then all others in spite of it), makes each of them alone, with a cache of its
own (`alone`), and stops at the first that succeeds (`naiveResult`, `naiveRecords`). Main
statements: the attempts of a search are this sequence, because no two candidates have the same
id (`plan_eq_sequence`), and a search that starts from a sound cache comes to the payload and
the records of the naive search (`run_spec`).
-/

namespace AgileSeal

namespace Search

/-! ## The naive search -/

/-- The attempts in order. -/
def sequence (label : Option String) (candidates : List Handler) : List (Handler × Phase) :=
  (candidates.filter fun h => some h.suiteId = label).map (·, .targeted) ++
    (candidates.filter fun h => some h.suiteId ≠ label).map (·, .fallback)

section

variable (files : FileSystem) (blob : Bytes) (credentials : Credentials)

/-- An attempt made alone: the bundle is read for the suite and decrypted with a fresh cache. -/
def alone (attempt : Handler × Phase) : Except AttemptFailure Bytes :=
  match attempt.1.parse blob with
  | .error _ => .error .malformed
  | .ok bundle =>
    match (attempt.1.decrypt files bundle credentials attempt.2.label).value with
    | .error _ => .error .decryption
    | .ok plaintext => .ok plaintext

/-- Whether an attempt made alone is turned down. -/
def turnedDown (attempt : Handler × Phase) : Bool := !(alone files blob credentials attempt).isOk

/-- The payload of an attempt that succeeds. -/
def payload? (attempt : Handler × Phase) : Option Payload :=
  (alone files blob credentials attempt).toOption.map (⟨·, attempt.1.suiteId⟩)

/-- The record of an attempt made alone. -/
def recordOf (attempt : Handler × Phase) : AttemptRecord where
  suiteId := attempt.1.suiteId
  phase := attempt.2
  failure :=
    match alone files blob credentials attempt with
    | .ok _ => none
    | .error failure => some failure

/-- The answer of the naive search: what the first attempt that succeeds gives. -/
def naiveResult (attempts : List (Handler × Phase)) : Except Error Payload :=
  match attempts.findSome? (payload? files blob credentials) with
  | some payload => .ok payload
  | none => .error .decryptionFailed

/-- The records of the naive search: the attempts up to the first that succeeds. -/
def naiveRecords (attempts : List (Handler × Phase)) : List AttemptRecord :=
  (attempts.takeWhile (turnedDown files blob credentials) ++
    (attempts.dropWhile (turnedDown files blob credentials)).take 1).map
      (recordOf files blob credentials)

end

section

variable {files : FileSystem} {blob : Bytes} {credentials : Credentials}

/-- An attempt made alone succeeds if its handler reads the blob and opens the bundle. -/
theorem alone_eq_ok_iff {a : Handler × Phase} {plaintext : Bytes} :
    alone files blob credentials a = .ok plaintext ↔ ∃ b, a.1.parse blob = .ok b ∧
      a.1.answer files b credentials a.2.label = .ok plaintext := by
  rw [alone]
  cases a.1.parse blob with
  | error e =>
      constructor
      · intro h
        cases h
      · rintro ⟨b, hparse, -⟩
        cases hparse
  | ok b =>
      simp only [Handler.value_decrypt]
      constructor
      · intro h
        cases hanswer : a.1.answer files b credentials a.2.label with
        | error e =>
            rw [hanswer] at h
            cases h
        | ok text =>
            rw [hanswer] at h
            cases h
            exact ⟨b, rfl, hanswer⟩
      · rintro ⟨b', hparse, hanswer⟩
        cases hparse
        rw [hanswer]

/-- An attempt on a bundle that its handler reads and does not open is rejected. -/
theorem alone_of_closed {a : Handler × Phase} {b : Bundle} (hparse : a.1.parse blob = .ok b)
    (hclosed : ∀ plaintext, a.1.answer files b credentials a.2.label ≠ .ok plaintext) :
    alone files blob credentials a = .error .decryption := by
  unfold alone
  rw [hparse]
  simp only [Handler.value_decrypt]
  cases hanswer : a.1.answer files b credentials a.2.label with
  | error e => rfl
  | ok plaintext => exact absurd hanswer (hclosed plaintext)

/-! What is read off an attempt that is turned down, and off one that succeeds. -/

theorem turnedDown_iff {a : Handler × Phase} : turnedDown files blob credentials a = true ↔
    ∃ failure, alone files blob credentials a = .error failure := by
  rw [turnedDown]
  cases alone files blob credentials a with
  | error failure => exact iff_of_true rfl ⟨failure, rfl⟩
  | ok plaintext =>
      refine iff_of_false Bool.false_ne_true ?_
      rintro ⟨failure, h⟩
      cases h

theorem turnedDown_of_ok {a : Handler × Phase} {plaintext : Bytes}
    (h : alone files blob credentials a = .ok plaintext) :
    turnedDown files blob credentials a = false := by
  rw [turnedDown, h]
  rfl

theorem payload?_of_error {a : Handler × Phase} {failure : AttemptFailure}
    (h : alone files blob credentials a = .error failure) :
    payload? files blob credentials a = none := by
  rw [payload?, h]
  rfl

theorem payload?_of_ok {a : Handler × Phase} {plaintext : Bytes}
    (h : alone files blob credentials a = .ok plaintext) :
    payload? files blob credentials a = some ⟨plaintext, a.1.suiteId⟩ := by
  rw [payload?, h]
  rfl

theorem recordOf_of_error {a : Handler × Phase} {failure : AttemptFailure}
    (h : alone files blob credentials a = .error failure) :
    recordOf files blob credentials a = ⟨a.1.suiteId, a.2, some failure⟩ := by
  rw [recordOf, h]

theorem recordOf_of_ok {a : Handler × Phase} {plaintext : Bytes}
    (h : alone files blob credentials a = .ok plaintext) :
    recordOf files blob credentials a = ⟨a.1.suiteId, a.2, none⟩ := by
  rw [recordOf, h]

/-- The records begin with that of the first attempt, and go on if it is turned down. -/
theorem naiveRecords_cons (a : Handler × Phase) (rest : List (Handler × Phase)) :
    naiveRecords files blob credentials (a :: rest) = recordOf files blob credentials a ::
      if turnedDown files blob credentials a then naiveRecords files blob credentials rest
      else [] := by
  unfold naiveRecords
  by_cases hdown : turnedDown files blob credentials a = true
  · rw [if_pos hdown, List.takeWhile_cons_of_pos hdown, List.dropWhile_cons_of_pos hdown,
      List.cons_append, List.map_cons]
  · rw [if_neg hdown, List.takeWhile_cons_of_neg hdown, List.dropWhile_cons_of_neg hdown]
    rfl

/-- What the naive search answers was found by one of its attempts, with the suite that it names. -/
theorem exists_alone_of_naiveResult {attempts : List (Handler × Phase)} {payload : Payload}
    (h : naiveResult files blob credentials attempts = .ok payload) :
    ∃ a ∈ attempts, a.1.suiteId = payload.suiteId ∧
      alone files blob credentials a = .ok payload.plaintext := by
  rw [naiveResult] at h
  cases hfirst : attempts.findSome? (payload? files blob credentials) with
  | none =>
      rw [hfirst] at h
      cases h
  | some found =>
      rw [hfirst] at h
      cases h
      obtain ⟨a, ha, hpayload⟩ := List.exists_of_findSome?_eq_some hfirst
      refine ⟨a, ha, ?_⟩
      rw [payload?] at hpayload
      cases halone : alone files blob credentials a with
      | error failure =>
          rw [halone] at hpayload
          cases hpayload
      | ok plaintext =>
          rw [halone] at hpayload
          cases hpayload
          exact ⟨rfl, rfl⟩

end

/-! ## Attempts -/

/-- With a sound cache an attempt ends as it does alone, and leaves a sound cache. -/
theorem attempt_spec (files : FileSystem) (blob : Bytes) (credentials : Credentials)
    (a : Handler × Phase) {cache : StretchCache} (hc : cache.Sound) :
    ∃ cache' : StretchCache,
      (attempt a.1 files blob credentials a.2.label cache).value
        = (alone files blob credentials a, cache') ∧ cache'.Sound := by
  rw [attempt, alone]
  cases a.1.parse blob with
  | error e => exact ⟨cache, rfl, hc⟩
  | ok bundle =>
      obtain ⟨cache', hvalue, hsound⟩ :=
        a.1.decryptWith_eq files bundle credentials a.2.label hc
      refine ⟨cache', ?_, hsound⟩
      simp only [Logged.value_bind, hvalue]
      cases (a.1.decrypt files bundle credentials a.2.label).value <;> rfl

/-- **Attempts in a row.** With a shared sound cache the payload and the records are those of
the naive search. -/
theorem tryAll_spec (files : FileSystem) (blob : Bytes) (credentials : Credentials)
    (attempts : List (Handler × Phase)) {cache : StretchCache} (hc : cache.Sound) :
    ∃ cache' : StretchCache, (tryAll files blob credentials attempts cache).value
      = ⟨attempts.findSome? (payload? files blob credentials),
        naiveRecords files blob credentials attempts, cache'⟩ ∧ cache'.Sound := by
  induction attempts generalizing cache with
  | nil => exact ⟨cache, rfl, hc⟩
  | cons a rest ih =>
      obtain ⟨h, phase⟩ := a
      obtain ⟨cache₁, hattempt, h₁⟩ := attempt_spec files blob credentials (h, phase) hc
      rw [tryAll]
      simp only [Logged.value_bind, hattempt]
      cases halone : alone files blob credentials (h, phase) with
      | ok plaintext =>
          refine ⟨cache₁, ?_, h₁⟩
          rw [List.findSome?_cons, payload?_of_ok halone, naiveRecords_cons,
            turnedDown_of_ok halone, recordOf_of_ok halone]
          rfl
      | error failure =>
          obtain ⟨cache₂, hrest, h₂⟩ := ih h₁
          refine ⟨cache₂, ?_, h₂⟩
          rw [List.findSome?_cons, payload?_of_error halone, naiveRecords_cons,
            turnedDown_iff.mpr ⟨failure, halone⟩, recordOf_of_error halone]
          simp only [Logged.value_bind, hrest]
          rfl

/-- Attempts that are turned down before one that succeeds leave their records. -/
theorem naive_of_split (files : FileSystem) (blob : Bytes) (credentials : Credentials)
    {before : List (Handler × Phase)} {a : Handler × Phase} {plaintext : Bytes}
    (hbefore : ∀ b ∈ before, turnedDown files blob credentials b = true)
    (ha : alone files blob credentials a = .ok plaintext) (after : List (Handler × Phase)) :
    (before ++ a :: after).findSome? (payload? files blob credentials)
        = some ⟨plaintext, a.1.suiteId⟩ ∧
      naiveRecords files blob credentials (before ++ a :: after)
        = before.map (recordOf files blob credentials) ++ [⟨a.1.suiteId, a.2, none⟩] := by
  induction before with
  | nil =>
      rw [List.nil_append, List.findSome?_cons, payload?_of_ok ha, naiveRecords_cons,
        turnedDown_of_ok ha, recordOf_of_ok ha]
      exact ⟨rfl, rfl⟩
  | cons b rest ih =>
      obtain ⟨hb, hrest⟩ := List.forall_mem_cons.mp hbefore
      obtain ⟨failure, halone⟩ := turnedDown_iff.mp hb
      obtain ⟨hpayload, hrecords⟩ := ih hrest
      rw [List.cons_append, List.findSome?_cons, payload?_of_error halone, naiveRecords_cons,
        if_pos hb, hrecords]
      exact ⟨hpayload, rfl⟩

/-! ## The order of attempts -/

/-- Behind the candidate that a label names, no candidate has the id again. -/
theorem unnamed_of_named {label : Option String} {h : Handler} {rest : List Handler}
    (hn : ((h :: rest).map Handler.suiteId).Nodup) (hl : some h.suiteId = label) :
    ∀ other ∈ rest, ¬some other.suiteId = label := by
  intro other hm heq
  rw [List.map_cons, List.nodup_cons] at hn
  have hid : other.suiteId = h.suiteId := Option.some.inj (heq.trans hl.symm)
  exact hn.1 (hid ▸ List.mem_map_of_mem hm)

/-- A candidate is known by its id. -/
theorem eq_of_suiteId {cs : List Handler} (hn : (cs.map Handler.suiteId).Nodup) {h h' : Handler}
    (hm : h ∈ cs) (hm' : h' ∈ cs) (hid : h.suiteId = h'.suiteId) : h = h' := by
  induction cs with
  | nil => cases hm
  | cons first rest ih =>
      rcases List.mem_cons.mp hm with rfl | hrest
      · rcases List.mem_cons.mp hm' with rfl | hrest'
        · rfl
        · exact absurd (congrArg some hid.symm) (unnamed_of_named hn rfl h' hrest')
      · rcases List.mem_cons.mp hm' with rfl | hrest'
        · exact absurd (congrArg some hid) (unnamed_of_named hn rfl h hrest)
        · exact ih (List.nodup_cons.mp hn).2 hrest hrest'

theorem toList_find?_label (label : Option String) {cs : List Handler}
    (hn : (cs.map Handler.suiteId).Nodup) :
    (cs.find? fun h => some h.suiteId = label).toList
      = cs.filter fun h => some h.suiteId = label := by
  induction cs with
  | nil => rfl
  | cons h rest ih =>
      by_cases hl : some h.suiteId = label
      · have hrest : (rest.filter fun h => some h.suiteId = label) = [] := by
          rw [List.filter_eq_nil_iff]
          simpa using unnamed_of_named hn hl
        rw [List.find?_cons_of_pos (by simpa using hl), List.filter_cons_of_pos (by simpa using hl),
          hrest, Option.toList_some]
      · rw [List.find?_cons_of_neg (by simpa using hl), List.filter_cons_of_neg (by simpa using hl)]
        exact ih (List.nodup_cons.mp hn).2

theorem eraseP_label (label : Option String) {cs : List Handler}
    (hn : (cs.map Handler.suiteId).Nodup) :
    (cs.eraseP fun h => some h.suiteId = label)
      = cs.filter fun h => some h.suiteId ≠ label := by
  induction cs with
  | nil => rfl
  | cons h rest ih =>
      by_cases hl : some h.suiteId = label
      · have hrest : (rest.filter fun h => some h.suiteId ≠ label) = rest := by
          rw [List.filter_eq_self]
          simpa using unnamed_of_named hn hl
        rw [List.eraseP_cons_of_pos (by simpa using hl),
          List.filter_cons_of_neg (by simpa using hl), hrest]
      · rw [List.eraseP_cons_of_neg (by simpa using hl),
          List.filter_cons_of_pos (by simpa using hl), ih (List.nodup_cons.mp hn).2]

/-- **The order of attempts.** Among candidates with distinct ids the plan is the candidate
that the header names and then all others. -/
theorem plan_eq_sequence (label : Option String) {cs : List Handler}
    (hn : (cs.map Handler.suiteId).Nodup) : plan label cs = sequence label cs := by
  rw [sequence, ← toList_find?_label label hn, ← eraseP_label label hn,
    List.eraseP_eq_eraseIdx, List.find?_eq_bind_findIdx?_getElem?, plan]
  cases cs.findIdx? fun h => some h.suiteId = label with
  | none => rfl
  | some index =>
      show (cs[index]?.map (·, Phase.targeted)).toList ++ _ = cs[index]?.toList.map _ ++ _
      cases cs[index]? <;> rfl

theorem mem_sequence {label : Option String} {cs : List Handler} {a : Handler × Phase} :
    a ∈ sequence label cs ↔ a.1 ∈ cs ∧ (a.2 = .targeted ↔ some a.1.suiteId = label) := by
  obtain ⟨h, phase⟩ := a
  rw [sequence, List.mem_append, List.mem_map, List.mem_map]
  cases phase <;> simp [List.mem_filter]

/-- Every candidate is attempted exactly once. -/
theorem sequence_perm (label : Option String) (cs : List Handler) :
    ((sequence label cs).map Prod.fst).Perm cs := by
  have hfst : ∀ (phase : Phase) (hs : List Handler), (hs.map (·, phase)).map Prod.fst = hs := by
    intro phase hs
    rw [List.map_map]
    exact List.map_id hs
  rw [sequence, List.map_append, hfst, hfst]
  simpa using List.filter_append_perm (fun h => decide (some h.suiteId = label)) cs

/-- The label that a search reads is the id in the header. -/
theorem value_labelOf (blob : Bytes) : (labelOf blob).value = Bundle.suiteIdOf? blob := by
  rw [labelOf, Bundle.suiteIdOf?]
  cases Header.read blob <;> rfl

/-- The outcome of a search is that of its attempts. -/
theorem value_run (files : FileSystem) (cs : List Handler) (blob : Bytes)
    (credentials : Credentials) (cache : StretchCache) :
    (run files cs blob credentials cache).value
      = (tryAll files blob credentials (plan (Bundle.suiteIdOf? blob) cs) cache).value := by
  rw [run, ← value_labelOf]
  simp only [Logged.value_bind]
  split <;> rfl

/-- **The search is the naive search**, if no two candidates have the same id and the search
starts from a sound cache. -/
theorem run_spec (files : FileSystem) {cs : List Handler}
    (hn : (cs.map Handler.suiteId).Nodup) (blob : Bytes) (credentials : Credentials)
    {cache : StretchCache} (hc : cache.Sound) :
    ∃ cache' : StretchCache, (run files cs blob credentials cache).value
      = ⟨(sequence (Bundle.suiteIdOf? blob) cs).findSome? (payload? files blob credentials),
        naiveRecords files blob credentials (sequence (Bundle.suiteIdOf? blob) cs), cache'⟩ ∧
      cache'.Sound := by
  obtain ⟨cache', hvalue, hsound⟩ :=
    tryAll_spec files blob credentials (sequence (Bundle.suiteIdOf? blob) cs) hc
  refine ⟨cache', ?_, hsound⟩
  rw [value_run, plan_eq_sequence _ hn, hvalue]

end Search

/-! ## The search of the service -/

/-- The handlers that a service tries when decrypting. -/
def World.candidates {σ : Type} (w : World σ) : List Handler :=
  (Registry.candidates.run (w.registry, w.factories)).value.1

/-- The attempts of a service on a blob, in order. -/
def World.attempts {σ : Type} (w : World σ) (blob : Bytes) : List (Handler × Phase) :=
  Search.sequence (Bundle.suiteIdOf? blob) w.candidates

/-- An operation on the registry is made in the world. -/
theorem Action.value_resolving {σ α : Type} {m : Resolving σ α} {w : World σ} {a : α}
    {r : Registry σ} {s : σ} (h : (m.run (w.registry, w.factories)).value = (a, r, s)) :
    (resolving m w).value = (.ok a, { w with registry := r, factories := s }) := by
  rw [resolving, Logged.value_bind, h]
  rfl

namespace Service

variable {σ : Type}

theorem candidates_eq {c : Config} {w : World σ} (hw : w.registry.Follows c) :
    w.candidates = c.candidates := by
  obtain ⟨r, hcs, -⟩ := hw.candidates w.factories
  exact congrArg Prod.fst hcs

theorem nodup_candidates {c : Config} {w : World σ} (hw : w.registry.Follows c) :
    (w.candidates.map Handler.suiteId).Nodup := by
  rw [candidates_eq hw]
  exact c.nodup_candidates

/-- The service searches the candidates of its registry, with nothing stretched yet. -/
theorem value_search {w : World σ} {cs : List Handler} {r : Registry σ} {s : σ}
    (hcs : (Registry.candidates.run (w.registry, w.factories)).value = (cs, r, s)) (blob : Bytes)
    (credentials : Credentials) :
    (search blob credentials w).value
      = (.ok (Search.run w.files cs blob credentials .empty).value,
        { w with registry := r, factories := s }) := by
  rw [search, Stateful.value_bind_ok (Action.value_resolving hcs)]
  rfl

/-- The search of a service whose registry follows a configuration. -/
theorem search_spec {c : Config} {w : World σ} (hw : w.registry.Follows c) (blob : Bytes)
    (credentials : Credentials) : ∃ (cache : StretchCache) (r : Registry σ),
    (search blob credentials w).value
      = (.ok ⟨(w.attempts blob).findSome? (Search.payload? w.files blob credentials),
          Search.naiveRecords w.files blob credentials (w.attempts blob), cache⟩,
        { w with registry := r }) ∧ r.Follows c := by
  obtain ⟨r, hcs, hfollows⟩ := hw.candidates w.factories
  obtain ⟨cache, hrun, -⟩ :=
    Search.run_spec w.files c.nodup_candidates blob credentials StretchCache.sound_empty
  refine ⟨cache, r, ?_, hfollows⟩
  rw [value_search hcs, hrun, World.attempts, candidates_eq hw]

/-- Decrypting gives the answer of the naive search. -/
theorem decrypt_spec {c : Config} {w : World σ} (hw : w.registry.Follows c) (blob : Bytes)
    (credentials : Credentials) : (decrypt blob credentials w).value.1
      = Search.naiveResult w.files blob credentials (w.attempts blob) := by
  obtain ⟨cache, r, hsearch, -⟩ := search_spec hw blob credentials
  rw [decrypt, Stateful.value_bind_ok hsearch]
  rfl

/-- What is decrypted was answered by a candidate, whose suite is named. -/
theorem exists_answer_of_decrypt {c : Config} {w : World σ} (hw : w.registry.Follows c)
    {blob : Bytes} {credentials : Credentials} {payload : Payload}
    (h : (decrypt blob credentials w).value.1 = .ok payload) :
    ∃ handler ∈ w.candidates, handler.suiteId = payload.suiteId ∧
      ∃ b label, handler.parse blob = .ok b ∧
        handler.answer w.files b credentials label = .ok payload.plaintext := by
  rw [decrypt_spec hw] at h
  obtain ⟨a, ha, hid, halone⟩ := Search.exists_alone_of_naiveResult h
  obtain ⟨b, hparse, hanswer⟩ := Search.alone_eq_ok_iff.mp halone
  exact ⟨a.1, (Search.mem_sequence.mp ha).1, hid, b, a.2.label, hparse, hanswer⟩

/-- **The search is the naive search.** At any time in the life of a registry that was built
from a configuration, the candidates have distinct ids, the attempts take each of them once,
and the search comes to the answer and the records of making the attempts one by one, each
alone, until the first succeeds. -/
theorem search_eq_naive {c : Config} {w : World σ} (hw : Registry.Built c w.registry)
    (blob : Bytes) (credentials : Credentials) :
    (w.candidates.map Handler.suiteId).Nodup ∧
      ((w.attempts blob).map Prod.fst).Perm w.candidates ∧
      ∃ outcome w', (search blob credentials w).value = (.ok outcome, w') ∧
        outcome.result = Search.naiveResult w.files blob credentials (w.attempts blob) ∧
        outcome.records = Search.naiveRecords w.files blob credentials (w.attempts blob) := by
  obtain ⟨cache, r, hsearch, -⟩ := search_spec hw.follows blob credentials
  exact ⟨nodup_candidates hw.follows, Search.sequence_perm _ _, _, _, hsearch, rfl, rfl⟩

end Service

/-! ## A sample -/

/-- A sample that reads: a suite with a key file comes before one with a passphrase. -/
def sampleReader : Config where
  active := "archive"
  order := ["archive", "current", "archive"]
  suites := ⟨[("archive", (sampleSuite "archive" .keyFile).info.names),
    ("current", (sampleSuite "current" .passphrase).info.names)], by decide⟩
  params := .default

/-- The header of a bundle of the suite `current` with nothing behind it. -/
def bareHeader : Bytes := [0x41, 0x47, 0x4c, 0x43, 1, 0, 7, 99, 117, 114, 114, 101, 110, 116]

/-- The suite `current` with another cipher. -/
def sampleRival : SuiteDefinition :=
  { sampleSuite "current" .passphrase with symmetric := .aes256Gcm }

/-- A sample in which the suite `current` has another cipher now, and what it was is kept as
`archive`. -/
def sampleRedefined : Config where
  active := "current"
  order := ["archive", "current"]
  suites := ⟨[("archive", (sampleSuite "archive" .passphrase).info.names),
    ("current", sampleRival.info.names)], by decide⟩
  params := .default

/-- What one cipher has sealed in the sample, the other rejects. -/
theorem rejects_rival : ∀ sealed ∈ DetachedCipher.chacha20Poly1305.encrypt sampleCipherKey
    (Bytes.zeros 12) sampleText bareHeader,
    DetachedCipher.aes256Gcm.decrypt sampleCipherKey (Bytes.zeros 12) sealed.1 sealed.2 bareHeader
      = none := by
  decide +kernel

section

variable (x : Handler.Sealed (sampleSuite "current" .passphrase) sampleParams "pw" sampleText
  sampleStream)

/-- The keys of the sample are its only keys. -/
theorem keys_sample : x.keys = sampleKeys := by
  have hstretch := x.stretch
  have hexpand := x.expand
  rw [RandomStream.draw_fst, segment_of_zeros rfl] at hstretch hexpand
  rw [Except.ok.inj (hstretch.symm.trans stretch_sample)] at hexpand
  exact Except.ok.inj (hexpand.symm.trans (expand_sample "current"))

theorem cipherKey_sample : x.run.key = sampleCipherKey := by
  have hkeys : x.keys = sampleKeys := keys_sample x
  obtain ⟨stretched, keys, hmode, hstretch, hexpand, run⟩ := x
  subst hkeys
  exact Engine.key_sample rfl run

/-- The suite with the other cipher gets the key of the bundle of the sample, but does not open
it. -/
theorem answer_rival (files : FileSystem) (label : LabelMatch) (plaintext : Bytes) :
    (Handler.new sampleRival .default).answer files x.bundle (.passphrase "pw") label
      ≠ .ok plaintext := by
  intro hanswer
  obtain ⟨-, keys, hkeys, hreveal⟩ := Handler.answer_eq_ok_iff.mp hanswer
  obtain ⟨-, -, -, key, associated, hkey, hassociated, hdecrypt⟩ :=
    Engine.reveal_eq_ok_iff.mp hreveal
  -- on the way to the key of the cipher nothing depends on the cipher
  cases Except.ok.inj (hkeys.symm.trans (x.material "current" .default))
  have hagree : x.keys.Agrees (sampleSuite "current" .passphrase)
      (sampleStream.draw sampleParams.saltLength.toNat).2 := by
    rw [keys_sample x]
    exact agrees_sample "current" .passphrase rfl
  have hderived : (Engine.new (sampleSuite "current" .passphrase) .default).keyOf x.bundle x.keys
      = .ok x.run.key := x.run.keyOf_recorded hagree _ rfl
  cases hderived.symm.trans hkey
  cases x.run.header.symm.trans hassociated
  obtain ⟨-, -, hopens⟩ := SymmetricCipher.decrypt_eq_ok_iff.mp hdecrypt
  have hsealed := (SymmetricCipher.cipher_of_encrypt x.run.sealed).2
  have hheader : x.run.associated = bareHeader := (Except.ok.inj x.run.header).symm
  have hnonce : x.bundle.nonce = Bytes.zeros 12 := segment_of_zeros rfl _ _
  rw [cipherKey_sample, hheader] at hsealed hopens
  rw [hnonce] at hopens
  have hnone := rejects_rival (x.run.ciphertext, x.run.tag) (hnonce ▸ hsealed)
  cases hnone.symm.trans hopens

variable {x} {blob : Bytes}

theorem alone_rival (hblob : x.bundle.encode = .ok blob) (files : FileSystem) :
    Search.alone files blob (.passphrase "pw") (.new sampleRival .default, .targeted)
      = .error .decryption := by
  have hparse : (Handler.new sampleRival .default).parse blob = .ok x.bundle :=
    x.parse hblob "current" .default
  exact Search.alone_of_closed hparse fun plaintext => answer_rival x files .exact plaintext

theorem alone_archive (hblob : x.bundle.encode = .ok blob) (files : FileSystem) :
    Search.alone files blob (.passphrase "pw")
      (.new (sampleSuite "archive" .passphrase) .default, .fallback) = .ok sampleText := by
  refine Search.alone_eq_ok_iff.mpr ⟨x.bundle, x.parse hblob "archive" .default, ?_⟩
  exact x.opens (kemsAgree_sample "current") "archive" .default files (.inl rfl)

/-- The attempts of the sample, the one that is rejected and the one that succeeds. -/
def redefinedAttempts : List (Handler × Phase) :=
  [(.new sampleRival .default, .targeted),
    (.new (sampleSuite "archive" .passphrase) .default, .fallback)]

theorem naive_redefined (hblob : x.bundle.encode = .ok blob) (files : FileSystem) :
    redefinedAttempts.findSome? (Search.payload? files blob (.passphrase "pw"))
        = some ⟨sampleText, "archive"⟩ ∧
      Search.naiveRecords files blob (.passphrase "pw") redefinedAttempts
        = [⟨"current", .targeted, some .decryption⟩, ⟨"archive", .fallback, none⟩] := by
  have hrejects := alone_rival hblob files
  obtain ⟨hpayload, hrecords⟩ := Search.naive_of_split files blob (.passphrase "pw")
    (List.forall_mem_singleton.mpr (Search.turnedDown_iff.mpr ⟨_, hrejects⟩))
    (alone_archive hblob files) []
  refine ⟨hpayload, hrecords.trans ?_⟩
  rw [List.map_singleton, Search.recordOf_of_error hrejects]
  rfl

end

/-- A service of the sample, with the bundle to read. -/
theorem exists_redefined : ∃ (w : World Unit) (blob : Bytes)
    (x : Handler.Sealed (sampleSuite "current" .passphrase) sampleParams "pw" sampleText
      sampleStream), Registry.Built sampleRedefined w.registry ∧ x.bundle.encode = .ok blob ∧
      w.attempts blob = redefinedAttempts := by
  have hactive : sampleRedefined.suite? sampleRedefined.active = some sampleRival := rfl
  obtain ⟨r, hr⟩ := Registry.exists_ofConfig rfl hactive ()
  have hbuilt : Registry.Built sampleRedefined r := .ofConfig hr
  obtain ⟨x⟩ := nonempty_sealed_sample "current" rfl
  obtain ⟨blob, hblob⟩ := x.exists_encode (by decide)
  let w : World Unit := ⟨r, (), sampleStream, .emptyAt []⟩
  refine ⟨w, blob, x, hbuilt, hblob, ?_⟩
  rw [World.attempts, Service.candidates_eq hbuilt.follows, x.suiteIdOf? hblob]
  rfl

/-- Both suites get the same keys for the bundle. The one that the header names comes first and
rejects it, and the other one opens it. -/
theorem Service.search_eq_naive_redefined : ∃ (w : World Unit) (blob : Bytes),
    Registry.Built sampleRedefined w.registry ∧
      ∃ outcome w', (Service.search blob (.passphrase "pw") w).value = (.ok outcome, w') ∧
        outcome.result = .ok ⟨sampleText, "archive"⟩ ∧
        outcome.records = [⟨"current", .targeted, some .decryption⟩,
          ⟨"archive", .fallback, none⟩] := by
  obtain ⟨w, blob, x, hbuilt, hblob, hattempts⟩ := exists_redefined
  obtain ⟨-, -, outcome, w', hsearch, hresult, hrecords⟩ :=
    Service.search_eq_naive hbuilt blob (.passphrase "pw")
  obtain ⟨hpayload, hrecorded⟩ := naive_redefined hblob w.files
  refine ⟨w, blob, hbuilt, outcome, w', hsearch, ?_, ?_⟩
  · rw [hresult, hattempts, Search.naiveResult, hpayload]
  · rw [hrecords, hattempts, hrecorded]

end AgileSeal
