import AgileSeal.Proofs.Service.RoundTrip

set_option autoImplicit false

/-! # The order of attempts only breaks ties

An attempt has its place in a sequence: it is made with the cache that the attempts before it have
left. Whether it succeeds does not depend on that place (`World.opens_iff`), so two configurations
whose orders have the same ids, however arranged and repeated, have the same candidates that open a
bundle. The order says which of them is found first, and nothing if there is only one
(`Service.order_breaks_ties`).
-/

namespace AgileSeal

/-! ## Candidates -/

/-- If only one element has a value, that value is found in any order. -/
theorem findSome?_eq_of_unique {α β : Type} {f : α → Option β} {xs ys : List α}
    (hmem : ∀ a, a ∈ xs ↔ a ∈ ys)
    (hunique : ∀ a b, a ∈ xs → b ∈ xs → (f a).isSome → (f b).isSome → a = b) :
    xs.findSome? f = ys.findSome? f := by
  cases hy : ys.findSome? f with
  | none =>
      rw [List.findSome?_eq_none_iff] at hy ⊢
      intro a ha
      exact hy a ((hmem a).mp ha)
  | some found =>
      obtain ⟨b, hb, hfound⟩ := List.exists_of_findSome?_eq_some hy
      have hsome : (xs.findSome? f).isSome := by
        rw [List.findSome?_isSome_iff]
        exact ⟨b, (hmem b).mpr hb, hfound ▸ rfl⟩
      obtain ⟨first, hx⟩ := Option.isSome_iff_exists.mp hsome
      obtain ⟨a, ha, hfirst⟩ := List.exists_of_findSome?_eq_some hx
      have hsame : a = b := hunique a b ha ((hmem b).mpr hb) (hfirst ▸ rfl) (hfound ▸ rfl)
      rw [hx, ← hfirst, hsame, hfound]

/-- The candidates are given by the ids in the order, not by their arrangement. -/
theorem Config.mem_candidates_reordered {c : Config} {order : List String}
    (hids : ∀ id, id ∈ c.order ↔ id ∈ order) (h : Handler) :
    h ∈ c.candidates ↔ h ∈ Config.candidates { c with order } := by
  rw [candidates, candidates, List.mem_filterMap, List.mem_filterMap]
  refine exists_congr fun id => and_congr ?_ Iff.rfl
  rw [List.mem_eraseDups, List.mem_eraseDups]
  exact hids id

/-! ## Attempts at their place -/

namespace Search

/-- The cache that attempts leave, made one after the other whether they succeed or not. -/
def cacheAfter (files : FileSystem) (blob : Bytes) (credentials : Credentials)
    (attempts : List (Handler × Phase)) : StretchCache :=
  attempts.foldl (fun cache a => (attempt a.1 files blob credentials a.2.label cache).value.2)
    .empty

/-- Attempts leave a sound cache. -/
theorem sound_cacheAfter (files : FileSystem) (blob : Bytes) (credentials : Credentials)
    (attempts : List (Handler × Phase)) :
    (cacheAfter files blob credentials attempts).Sound := by
  refine List.foldlRecOn attempts _ StretchCache.sound_empty fun cache hc a _ => ?_
  obtain ⟨cache', hvalue, hsound⟩ := attempt_spec files blob credentials a hc
  rw [hvalue]
  exact hsound

end Search

/-- A candidate opens a blob if its attempt, made at its place after all earlier ones,
succeeds. -/
def World.Opens {σ : Type} (w : World σ) (blob : Bytes) (credentials : Credentials)
    (h : Handler) : Prop :=
  ∃ before phase after plaintext, w.attempts blob = before ++ (h, phase) :: after ∧
    (Search.attempt h w.files blob credentials phase.label
      (Search.cacheAfter w.files blob credentials before)).value.1 = .ok plaintext

section

variable {σ τ : Type} {blob : Bytes} {credentials : Credentials}

/-- **The place of an attempt does not matter**: it succeeds exactly if it succeeds alone. -/
theorem World.opens_iff {w : World σ} {h : Handler} : w.Opens blob credentials h ↔
    ∃ phase plaintext, (h, phase) ∈ w.attempts blob ∧
      Search.alone w.files blob credentials (h, phase) = .ok plaintext := by
  have hplace (before : List (Handler × Phase)) (phase : Phase) :
      (Search.attempt h w.files blob credentials phase.label
        (Search.cacheAfter w.files blob credentials before)).value.1
        = Search.alone w.files blob credentials (h, phase) := by
    obtain ⟨cache, hvalue, -⟩ := Search.attempt_spec w.files blob credentials (h, phase)
      (Search.sound_cacheAfter w.files blob credentials before)
    exact congrArg Prod.fst hvalue
  constructor
  · rintro ⟨before, phase, after, plaintext, hsplit, hattempt⟩
    rw [hplace] at hattempt
    refine ⟨phase, plaintext, ?_, hattempt⟩
    rw [hsplit]
    exact List.mem_append_right before List.mem_cons_self
  · rintro ⟨phase, plaintext, hmem, halone⟩
    obtain ⟨before, after, hsplit⟩ := List.append_of_mem hmem
    exact ⟨before, phase, after, plaintext, hsplit, (hplace before phase).trans halone⟩

namespace Service

/-- Two services with the same candidates make the same attempts, in whatever order. -/
theorem mem_attempts_congr {w : World σ} {w' : World τ}
    (hcandidates : ∀ h, h ∈ w.candidates ↔ h ∈ w'.candidates) (a : Handler × Phase) :
    a ∈ w.attempts blob ↔ a ∈ w'.attempts blob := by
  rw [World.attempts, World.attempts, Search.mem_sequence, Search.mem_sequence, hcandidates]

/-- **The order of attempts only breaks ties.** Let two configurations differ only in their orders
and both orders have the same ids. Then the same candidates open a blob, and if there is at most
one that does, decryption has the same result. -/
theorem order_breaks_ties {c : Config} {order : List String} {w : World σ} {w' : World τ}
    (hw : Registry.Built c w.registry) (hw' : Registry.Built { c with order } w'.registry)
    (hfiles : w.files = w'.files) (hids : ∀ id, id ∈ c.order ↔ id ∈ order) (blob : Bytes)
    (credentials : Credentials) :
    (∀ h, w.Opens blob credentials h ↔ w'.Opens blob credentials h) ∧
      ((∀ h h', w.Opens blob credentials h → w.Opens blob credentials h' → h = h') →
        (decrypt blob credentials w).value.1 = (decrypt blob credentials w').value.1) := by
  have hattempts (a : Handler × Phase) : a ∈ w.attempts blob ↔ a ∈ w'.attempts blob := by
    refine mem_attempts_congr (fun h => ?_) a
    rw [candidates_eq hw.follows, candidates_eq hw'.follows]
    exact Config.mem_candidates_reordered hids h
  refine ⟨fun h => ?_, fun honly => ?_⟩
  · rw [World.opens_iff, World.opens_iff, hfiles]
    simp only [hattempts]
  · have hopens (a : Handler × Phase) (ha : a ∈ w.attempts blob)
        (hpayload : (Search.payload? w.files blob credentials a).isSome) :
        w.Opens blob credentials a.1 := by
      cases halone : Search.alone w.files blob credentials a with
      | error failure =>
          rw [Search.payload?_of_error halone] at hpayload
          cases hpayload
      | ok plaintext => exact World.opens_iff.mpr ⟨a.2, plaintext, ha, halone⟩
    have hunique : ∀ a b, a ∈ w.attempts blob → b ∈ w.attempts blob →
        (Search.payload? w.files blob credentials a).isSome →
        (Search.payload? w.files blob credentials b).isSome → a = b := by
      rintro ⟨h, phase⟩ ⟨h', phase'⟩ ha hb hpa hpb
      obtain rfl : h = h' := honly h h' (hopens _ ha hpa) (hopens _ hb hpb)
      -- the label alone says in which phase a candidate is attempted
      have hphase := (Search.mem_sequence.mp ha).2.trans (Search.mem_sequence.mp hb).2.symm
      cases phase <;> cases phase' <;> simp_all
    rw [decrypt_spec hw.follows, decrypt_spec hw'.follows, Search.naiveResult, Search.naiveResult,
      findSome?_eq_of_unique hattempts hunique, hfiles]

/-- A bundle of the suite `current` is opened by that candidate alone, whether it is the last one or
the first. -/
theorem order_breaks_ties_current : ∃ (w w' : World Unit) (blob : Bytes),
    Registry.Built sampleReader w.registry ∧
      Registry.Built { sampleReader with order := ["current", "archive"] } w'.registry ∧
      w.files = w'.files ∧
      (∀ h, w.Opens blob (.passphrase "pw") h
        ↔ h = .new (sampleSuite "current" .passphrase) .default) ∧
      (decrypt blob (.passphrase "pw") w).value.1
        = (decrypt blob (.passphrase "pw") w').value.1 := by
  have hactive : sampleReader.suite? sampleReader.active
      = some (sampleSuite "archive" .keyFile) := rfl
  obtain ⟨r, hr⟩ := Registry.exists_ofConfig rfl hactive ()
  obtain ⟨r', hr'⟩ := Registry.exists_ofConfig
    (c := { sampleReader with order := ["current", "archive"] }) rfl hactive ()
  obtain ⟨x⟩ := nonempty_sealed_sample "current" rfl
  obtain ⟨blob, hblob⟩ := x.exists_encode (by decide)
  let w : World Unit := ⟨r, (), sampleStream, .emptyAt []⟩
  let w' : World Unit := ⟨r', (), sampleStream, .emptyAt []⟩
  have hw : Registry.Built sampleReader w.registry := .ofConfig hr
  have hw' : Registry.Built { sampleReader with order := ["current", "archive"] } w'.registry :=
    .ofConfig hr'
  have hcandidates : w.candidates = [.new (sampleSuite "archive" .keyFile) .default,
      .new (sampleSuite "current" .passphrase) .default] := candidates_eq hw.follows
  have hopens : ∀ h, w.Opens blob (.passphrase "pw") h
      ↔ h = .new (sampleSuite "current" .passphrase) .default := by
    intro h
    rw [World.opens_iff]
    constructor
    · rintro ⟨phase, plaintext, hmem, halone⟩
      have hcandidate := (Search.mem_sequence.mp hmem).1
      rw [hcandidates] at hcandidate
      rcases List.mem_pair.mp hcandidate with rfl | hcurrent
      · obtain ⟨failure, hfailure⟩ := Search.turnedDown_iff.mp
          (Search.turnedDown_of_keyFile w.files blob "pw" _ phase)
        cases halone.symm.trans hfailure
      · exact hcurrent
    · rintro rfl
      refine ⟨.targeted, sampleText, Search.mem_sequence.mpr ⟨?_, ?_⟩, ?_⟩
      · rw [hcandidates]
        exact List.mem_cons_of_mem _ List.mem_cons_self
      · rw [x.suiteIdOf? hblob]
        exact iff_of_true rfl rfl
      · exact Search.alone_of_sealed x (kemsAgree_sample "current") hblob w.files "current"
          .default .targeted (Or.inr rfl)
  have hthere : ∀ id ∈ sampleReader.order, id ∈ ["current", "archive"] := by decide
  have hback : ∀ id ∈ ["current", "archive"], id ∈ sampleReader.order := by decide
  have hids : ∀ id, id ∈ sampleReader.order ↔ id ∈ ["current", "archive"] := fun id =>
    ⟨hthere id, hback id⟩
  refine ⟨w, w', blob, hw, hw', rfl, hopens, ?_⟩
  refine (order_breaks_ties hw hw' rfl hids blob (.passphrase "pw")).2 fun h h' hh hh' => ?_
  exact ((hopens h).mp hh).trans ((hopens h').mp hh').symm

end Service

end

end AgileSeal
