import AgileSeal.Proofs.Handler.RoundTrip
import AgileSeal.Proofs.Search.Naive

set_option autoImplicit false

/-! # Round trips between services

One service encrypts, another decrypts; each has its own registry, configured on its own. A
passphrase opens what it has sealed if the other service has the suite among its candidates
(`decrypt_of_encrypt_passphrase`), or the same algorithms under another id and no earlier
attempt that succeeds (`decrypt_of_encrypt_relabelled`).
-/

namespace AgileSeal

namespace Service

variable {σ τ : Type}

/-! ## What an encryption does -/

theorem value_activeHandler {c : Config} {w : World σ} (hw : w.registry.Follows c) :
    ∃ r : Registry σ, (activeHandler w).value = (c.answer c.active, { w with registry := r }) ∧
      r.Follows c := by
  obtain ⟨r, hactive, hfollows⟩ := hw.activeHandler w.factories
  refine ⟨r, ?_, hfollows⟩
  rw [activeHandler, Stateful.value_bind_ok (Action.value_resolving hactive)]
  rfl

/-- The bundle that a service makes is the one of its active suite, written. -/
theorem exists_of_encrypt {c : Config} {w : World σ} (hw : w.registry.Follows c)
    {plaintext blob : Bytes} {credentials : Credentials}
    (h : (encrypt plaintext credentials w).value.1 = .ok blob) :
    ∃ suite b s', c.suite? c.active = some suite ∧
      ((Handler.new suite c.params).encrypt w.files plaintext credentials w.random).value
        = (.ok b, s') ∧ b.encode = .ok blob := by
  rcases hv : (encrypt plaintext credentials w).value with ⟨result, w'⟩
  rw [hv] at h
  cases h
  obtain ⟨handler, w₁, h₁, hv⟩ := Stateful.bind_eq_ok hv
  obtain ⟨b, w₂, h₂, hv⟩ := Stateful.bind_eq_ok hv
  obtain ⟨⟨⟩, w₃, h₃, hv⟩ := Stateful.bind_eq_ok hv
  obtain ⟨files, w₄, h₄, h₅⟩ := Stateful.bind_eq_ok h₂
  obtain ⟨r, hactive, -⟩ := value_activeHandler hw
  rw [hactive, Prod.mk.injEq] at h₁
  obtain ⟨hanswer, rfl⟩ := h₁
  obtain ⟨suite, hsuite, rfl⟩ := Config.answer_eq_ok_iff.mp hanswer
  cases h₄
  cases h₃
  have hseal : ((Handler.new suite c.params).encrypt w.files plaintext credentials
      w.random).value.1 = .ok b := (Prod.mk.inj h₅).1
  have hwrite : b.encode = .ok blob := (Prod.mk.inj hv).1
  exact ⟨suite, b, _, hsuite, Prod.ext hseal rfl, hwrite⟩

/-- A service with a passphrase suite as its active one seals with this suite. -/
theorem exists_sealed_of_encrypt {c : Config} {w : World σ} (hw : w.registry.Follows c)
    {suite : SuiteDefinition} (hsuite : c.suite? c.active = some suite) {plaintext blob : Bytes}
    {text : String} (h : (encrypt plaintext (.passphrase text) w).value.1 = .ok blob) :
    ∃ x : Handler.Sealed suite c.params text plaintext w.random, x.bundle.encode = .ok blob := by
  obtain ⟨found, b, s', hfound, hseal, hwrite⟩ := exists_of_encrypt hw h
  rw [hsuite] at hfound
  cases hfound
  obtain ⟨x, rfl⟩ := Handler.exists_sealed hseal
  exact ⟨x, hwrite⟩

/-- A service writes the bundle that its active suite makes. -/
theorem result_encrypt {c : Config} {w : World σ} (hw : w.registry.Follows c)
    {suite : SuiteDefinition} (hsuite : c.suite? c.active = some suite) (plaintext : Bytes)
    (credentials : Credentials) : (encrypt plaintext credentials w).value.1
      = ((Handler.new suite c.params).encrypt w.files plaintext credentials w.random).value.1
        >>= Bundle.encode := by
  obtain ⟨r, hactive, -⟩ := value_activeHandler hw
  rw [Config.answer_eq_ok_iff.mpr ⟨suite, hsuite, rfl⟩] at hactive
  refine (Stateful.result_bind_ok hactive).trans ?_
  rcases hv : (encryptWith (.new suite c.params) plaintext credentials
    { w with registry := r }).value with ⟨result, w'⟩
  have hseal : ((Handler.new suite c.params).encrypt w.files plaintext credentials
      w.random).value.1 = result := congrArg Prod.fst hv
  rw [hseal]
  cases result with
  | error e => exact Stateful.result_bind_error (congrArg Prod.fst hv)
  | ok b =>
      refine (Stateful.result_bind_ok hv).trans ?_
      exact (Stateful.result_bind_ok (a := ()) rfl).trans rfl

/-- A service makes the bundle that its active suite seals. -/
theorem encrypt_of_handler {c : Config} {w : World σ} (hw : w.registry.Follows c)
    {suite : SuiteDefinition} (hsuite : c.suite? c.active = some suite) {plaintext blob : Bytes}
    {credentials : Credentials} {b : Bundle}
    (hseal : ((Handler.new suite c.params).encrypt w.files plaintext credentials
      w.random).value.1 = .ok b) (hblob : b.encode = .ok blob) :
    (encrypt plaintext credentials w).value.1 = .ok blob := by
  rw [result_encrypt hw hsuite, hseal]
  exact hblob

/-- A service with a passphrase suite as its active one makes the bundle that this suite
seals. -/
theorem encrypt_of_sealed {c : Config} {w : World σ} (hw : w.registry.Follows c)
    {suite : SuiteDefinition} (hsuite : c.suite? c.active = some suite) {plaintext blob : Bytes}
    {text : String} (x : Handler.Sealed suite c.params text plaintext w.random)
    (hblob : x.bundle.encode = .ok blob) :
    (encrypt plaintext (.passphrase text) w).value.1 = .ok blob :=
  encrypt_of_handler hw hsuite (Handler.encrypt_of_sealed x w.files) hblob

end Service

/-! ## What the search makes of it -/

namespace Search

/-- An attempt with the algorithms that sealed a blob opens it, in spite of the label or under
it. -/
theorem alone_of_sealed {suite : SuiteDefinition} {params : Params} {text : String}
    {plaintext blob : Bytes} {s : RandomStream}
    (x : Handler.Sealed suite params text plaintext s) (hagree : KemsAgree suite params text s)
    (hblob : x.bundle.encode = .ok blob) (files : FileSystem) (id : String) (params' : Params)
    (phase : Phase) (hphase : phase = .fallback ∨ id = suite.id) :
    alone files blob (.passphrase text) (.new (suite.relabelled id) params', phase)
      = .ok plaintext := by
  have hlabel : phase.label = .override ∨ id = suite.id := by
    rcases hphase with hfallback | hid
    · rw [hfallback]
      exact Or.inl rfl
    · exact Or.inr hid
  exact alone_eq_ok_iff.mpr ⟨x.bundle, x.parse hblob id params',
    x.opens hagree id params' files hlabel⟩

/-- A list up to its only element that does not have a property. -/
theorem eq_takeWhile_append {α : Type} {p : α → Bool} {xs : List α} {x : α} (hx : x ∈ xs)
    (hp : p x = false) (honly : ∀ y ∈ xs, p y = false → y = x) :
    ∃ after, xs = xs.takeWhile p ++ x :: after := by
  induction xs with
  | nil => cases hx
  | cons y rest ih =>
      cases hy : p y with
      | false =>
          have hyx : y = x := honly y List.mem_cons_self hy
          refine ⟨rest, ?_⟩
          rw [List.takeWhile_cons_of_neg (by simp [hy]), hyx, List.nil_append]
      | true =>
          have hrest : x ∈ rest := by
            rcases List.mem_cons.mp hx with rfl | hrest
            · rw [hp] at hy
              cases hy
            · exact hrest
          obtain ⟨after, hafter⟩ := ih hrest fun z hz => honly z (List.mem_cons_of_mem _ hz)
          refine ⟨after, ?_⟩
          rw [List.takeWhile_cons_of_pos hy, List.cons_append, ← hafter]

/-- A candidate that the header names is attempted first, and all others in spite of the label. -/
theorem sequence_eq_of_named {cs : List Handler} (hn : (cs.map Handler.suiteId).Nodup)
    {h : Handler} (hmem : h ∈ cs) : sequence (some h.suiteId) cs = (h, .targeted) ::
      (cs.filter fun other => some other.suiteId ≠ some h.suiteId).map (·, .fallback) := by
  have hfind : (cs.find? fun other => some other.suiteId = some h.suiteId) = some h := by
    cases hf : cs.find? fun other => some other.suiteId = some h.suiteId with
    | none => exact absurd (List.find?_eq_none.mp hf h hmem) (by simp)
    | some found =>
        have hid : found.suiteId = h.suiteId := by simpa using List.find?_some hf
        rw [eq_of_suiteId hn (List.mem_of_find?_eq_some hf) hmem hid]
  rw [sequence, ← toList_find?_label _ hn, hfind]
  rfl

/-- A candidate that the header names is attempted first. -/
theorem sequence_of_named {cs : List Handler} (hn : (cs.map Handler.suiteId).Nodup) {h : Handler}
    (hmem : h ∈ cs) : ∃ rest, sequence (some h.suiteId) cs = (h, .targeted) :: rest :=
  ⟨_, sequence_eq_of_named hn hmem⟩

/-- A candidate that the header does not name is attempted in spite of the label, after the
attempts before the first with its id. -/
theorem sequence_of_unnamed {label : Option String} {cs : List Handler}
    (hn : (cs.map Handler.suiteId).Nodup) {h : Handler} (hmem : h ∈ cs)
    (hlabel : some h.suiteId ≠ label) : ∃ after, sequence label cs
      = (sequence label cs).takeWhile (fun a => a.1.suiteId ≠ h.suiteId)
        ++ (h, .fallback) :: after := by
  have hin : (h, Phase.fallback) ∈ sequence label cs := by
    refine mem_sequence.mpr ⟨hmem, ?_⟩
    constructor
    · intro hphase
      exact Phase.noConfusion hphase
    · intro hid
      exact absurd hid hlabel
  refine eq_takeWhile_append hin (by simp) ?_
  rintro ⟨other, phase⟩ hother hid
  obtain ⟨hcs, hphase⟩ := mem_sequence.mp hother
  have hid' : other.suiteId = h.suiteId := by simpa using hid
  have hsame : other = h := eq_of_suiteId hn hcs hmem hid'
  cases phase with
  | fallback => rw [hsame]
  | targeted =>
      have hnamed : some other.suiteId = label := hphase.mp rfl
      rw [hid'] at hnamed
      exact absurd hnamed hlabel

end Search

/-- A suite with a key file turns every passphrase down. -/
theorem Search.turnedDown_of_keyFile (files : FileSystem) (blob : Bytes) (text : String)
    (engine : Engine) (phase : Phase) :
    turnedDown files blob (.passphrase text) (.keyFile engine, phase) = true := by
  rw [turnedDown_iff, alone]
  cases (Handler.keyFile engine).parse blob with
  | error e => exact ⟨_, rfl⟩
  | ok b =>
      have hanswer : (Handler.keyFile engine).answer files b (.passphrase text) phase.label
          = .error .decryption := by
        rw [Handler.answer]
        cases (Handler.keyFile engine).refusal? b phase.label <;> rfl
      simp only [Handler.value_decrypt, hanswer]
      exact ⟨_, rfl⟩

/-! ## Samples -/

/-- A sample that writes with one passphrase suite. -/
def sampleWriter (id : String) : Config where
  active := id
  order := [id]
  suites := ⟨[(id, (sampleSuite id .passphrase).info.names)], List.pairwise_singleton _ _⟩
  params := sampleParams

namespace Service

/-- The sample writes a bundle. -/
theorem exists_encrypt_sample {id : String} (hvalid : (sampleWriter id).validate = .ok ())
    (hactive : (sampleWriter id).suite? id = some (sampleSuite id .passphrase))
    {associated : Bytes} (hid : (Header.ofSuite id).encode = .ok associated) :
    ∃ (w : World Unit) (blob : Bytes), Registry.Built (sampleWriter id) w.registry ∧
      w.random = sampleStream ∧
      (encrypt sampleText (.passphrase "pw") w).value.1 = .ok blob ∧
      Bundle.suiteIdOf? blob = some id := by
  obtain ⟨r, hr⟩ := Registry.exists_ofConfig hvalid hactive ()
  have hbuilt : Registry.Built (sampleWriter id) r := .ofConfig hr
  obtain ⟨x⟩ := nonempty_sealed_sample id hid
  obtain ⟨blob, hblob⟩ := x.exists_encode (by decide)
  let w : World Unit := ⟨r, (), sampleStream, .emptyAt []⟩
  exact ⟨w, blob, hbuilt, rfl, encrypt_of_sealed hbuilt.follows hactive x hblob,
    x.suiteIdOf? hblob⟩

theorem exists_sampleReader : ∃ w : World Unit, Registry.Built sampleReader w.registry := by
  have hactive : sampleReader.suite? sampleReader.active
      = some (sampleSuite "archive" .keyFile) := rfl
  obtain ⟨r, hr⟩ := Registry.exists_ofConfig rfl hactive ()
  exact ⟨⟨r, (), sampleStream, .emptyAt []⟩, .ofConfig hr⟩

end Service

/-! ## Round trips -/

namespace Service

variable {σ τ : Type}

/-- A service has every suite in its order that its configuration describes. -/
theorem mem_candidates {c : Config} {w : World σ} (hw : w.registry.Follows c) {id : String}
    {suite : SuiteDefinition} (hsuite : c.suite? id = some suite) (horder : id ∈ c.order) :
    Handler.new suite c.params ∈ w.candidates := by
  rw [candidates_eq hw]
  exact Config.mem_candidates hsuite horder

/-- **A passphrase opens what it has sealed.** Whatever a service encrypts with its active suite
and a passphrase, every service that describes this suite in the same way and has it in its
order decrypts, whatever the rest of its configuration, if the key encapsulations agree on the
derived keys and the bytes drawn. -/
theorem decrypt_of_encrypt_passphrase {ca cb : Config} {wa : World σ} {wb : World τ}
    (ha : Registry.Built ca wa.registry) (hb : Registry.Built cb wb.registry)
    {suite : SuiteDefinition} (hactive : ca.suite? ca.active = some suite)
    (hsame : cb.suite? suite.id = some suite) (horder : suite.id ∈ cb.order)
    {plaintext blob : Bytes} {text : String}
    (hagree : KemsAgree suite ca.params text wa.random)
    (hblob : (encrypt plaintext (.passphrase text) wa).value.1 = .ok blob) :
    Bundle.suiteIdOf? blob = some suite.id ∧
      (decrypt blob (.passphrase text) wb).value.1 = .ok ⟨plaintext, suite.id⟩ := by
  obtain ⟨x, hwrite⟩ := exists_sealed_of_encrypt ha.follows hactive hblob
  have hlabel := x.suiteIdOf? hwrite
  refine ⟨hlabel, ?_⟩
  have hid : (Handler.new suite cb.params).suiteId = suite.id := Handler.suiteId_new _ _
  obtain ⟨rest, hattempts⟩ := Search.sequence_of_named (nodup_candidates hb.follows)
    (mem_candidates hb.follows hsame horder)
  have halone := Search.alone_of_sealed x hagree hwrite wb.files suite.id cb.params .targeted
    (Or.inr rfl)
  have hnone : ∀ a ∈ ([] : List (Handler × Phase)),
      Search.turnedDown wb.files blob (.passphrase text) a = true := by
    intro a ha
    cases ha
  obtain ⟨hpayload, -⟩ := Search.naive_of_split wb.files blob (.passphrase text) hnone halone rest
  have hfirst : (wb.attempts blob).findSome? (Search.payload? wb.files blob (.passphrase text))
      = some ⟨plaintext, suite.id⟩ := by
    rw [hid] at hattempts
    rw [World.attempts, hlabel, hattempts, ← hid]
    exact hpayload
  rw [decrypt_spec hb.follows, Search.naiveResult, hfirst]

/-- The suite of the sample is the second of the reader, which has a key file suite first. -/
theorem decrypt_of_encrypt_passphrase_current : ∃ (wa wb : World Unit) (blob : Bytes),
    Registry.Built (sampleWriter "current") wa.registry ∧
      Registry.Built sampleReader wb.registry ∧
      (encrypt sampleText (.passphrase "pw") wa).value.1 = .ok blob ∧
      Bundle.suiteIdOf? blob = some "current" ∧
      (decrypt blob (.passphrase "pw") wb).value.1 = .ok ⟨sampleText, "current"⟩ := by
  have hactive : (sampleWriter "current").suite? (sampleWriter "current").active
      = some (sampleSuite "current" .passphrase) := rfl
  have hsame : sampleReader.suite? "current" = some (sampleSuite "current" .passphrase) := rfl
  obtain ⟨wa, blob, ha, hrandom, hblob, -⟩ := exists_encrypt_sample rfl hactive rfl
  obtain ⟨wb, hb⟩ := exists_sampleReader
  have hagree := kemsAgree_sample "current"
  rw [← hrandom] at hagree
  obtain ⟨hlabel, hdecrypt⟩ :=
    decrypt_of_encrypt_passphrase ha hb hactive hsame (by decide) hagree hblob
  exact ⟨wa, wb, blob, ha, hb, hblob, hlabel, hdecrypt⟩

/-- **A retired label still opens.** Whatever a service encrypts with its active suite and a
passphrase, every service that has the same algorithms under another id among its candidates
decrypts with them, in spite of the label, if it turns down every attempt before that candidate
and the key encapsulations agree on the derived keys and the bytes drawn. -/
theorem decrypt_of_encrypt_relabelled {ca cb : Config} {wa : World σ} {wb : World τ}
    (ha : Registry.Built ca wa.registry) (hb : Registry.Built cb wb.registry)
    {suite : SuiteDefinition} (hactive : ca.suite? ca.active = some suite) {id : String}
    (hother : id ≠ suite.id) (hsame : cb.suite? id = some (suite.relabelled id))
    (horder : id ∈ cb.order) {plaintext blob : Bytes} {text : String}
    (hagree : KemsAgree suite ca.params text wa.random)
    (hblob : (encrypt plaintext (.passphrase text) wa).value.1 = .ok blob)
    (hrejected : ∀ a ∈ (wb.attempts blob).takeWhile (fun a => a.1.suiteId ≠ id),
      Search.turnedDown wb.files blob (.passphrase text) a = true) :
    ∃ outcome w', (search blob (.passphrase text) wb).value = (.ok outcome, w') ∧
      outcome.result = .ok ⟨plaintext, id⟩ ∧
      outcome.records.getLast? = some ⟨id, .fallback, none⟩ ∧
      (decrypt blob (.passphrase text) wb).value = (.ok ⟨plaintext, id⟩, w') := by
  obtain ⟨x, hwrite⟩ := exists_sealed_of_encrypt ha.follows hactive hblob
  have hlabel := x.suiteIdOf? hwrite
  have hid : (Handler.new (suite.relabelled id) cb.params).suiteId = id :=
    Handler.suiteId_new _ _
  have hunnamed : some (Handler.new (suite.relabelled id) cb.params).suiteId
      ≠ Bundle.suiteIdOf? blob := by
    rw [hid, hlabel]
    intro heq
    exact hother (Option.some.inj heq)
  obtain ⟨after, hattempts⟩ := Search.sequence_of_unnamed (nodup_candidates hb.follows)
    (mem_candidates hb.follows hsame horder) hunnamed
  rw [hid] at hattempts
  have halone := Search.alone_of_sealed x hagree hwrite wb.files id cb.params .fallback
    (Or.inl rfl)
  obtain ⟨hpayload, hrecords⟩ :=
    Search.naive_of_split wb.files blob (.passphrase text) hrejected halone after
  obtain ⟨cache, r, hsearch, -⟩ := search_spec hb.follows blob (.passphrase text)
  have hsplit : wb.attempts blob = (wb.attempts blob).takeWhile (fun a => a.1.suiteId ≠ id)
    ++ (Handler.new (suite.relabelled id) cb.params, .fallback) :: after := hattempts
  rw [← hsplit, hid] at hpayload hrecords
  rw [hpayload, hrecords] at hsearch
  refine ⟨_, _, hsearch, rfl, List.getLast?_concat, ?_⟩
  rw [decrypt, Stateful.value_bind_ok hsearch]
  rfl

/-- The reader has the suite under another id, behind one with a key file, which turns the
passphrase down. -/
theorem decrypt_of_encrypt_relabelled_retired : ∃ (wa wb : World Unit) (blob : Bytes),
    Registry.Built (sampleWriter "retired") wa.registry ∧
      Registry.Built sampleReader wb.registry ∧
      (encrypt sampleText (.passphrase "pw") wa).value.1 = .ok blob ∧
      ∃ outcome w', (search blob (.passphrase "pw") wb).value = (.ok outcome, w') ∧
        outcome.result = .ok ⟨sampleText, "current"⟩ ∧
        outcome.records.getLast? = some ⟨"current", .fallback, none⟩ ∧
        (decrypt blob (.passphrase "pw") wb).value = (.ok ⟨sampleText, "current"⟩, w') := by
  have hactive : (sampleWriter "retired").suite? (sampleWriter "retired").active
      = some (sampleSuite "retired" .passphrase) := rfl
  have hsame : sampleReader.suite? "current"
      = some ((sampleSuite "retired" .passphrase).relabelled "current") := rfl
  obtain ⟨wa, blob, ha, hrandom, hblob, hlabel⟩ := exists_encrypt_sample rfl hactive rfl
  obtain ⟨wb, hb⟩ := exists_sampleReader
  have hagree := kemsAgree_sample "retired"
  rw [← hrandom] at hagree
  have hbefore : (wb.attempts blob).takeWhile (fun a => a.1.suiteId ≠ "current")
      = [(.keyFile (.new (sampleSuite "archive" .keyFile) .default), .fallback)] := by
    rw [World.attempts, hlabel, candidates_eq hb.follows]
    rfl
  have hrejected : ∀ a ∈ (wb.attempts blob).takeWhile (fun a => a.1.suiteId ≠ "current"),
      Search.turnedDown wb.files blob (.passphrase "pw") a = true := by
    rw [hbefore]
    intro a ha
    rw [List.mem_singleton] at ha
    rw [ha]
    exact Search.turnedDown_of_keyFile _ _ _ _ _
  exact ⟨wa, wb, blob, ha, hb, hblob, decrypt_of_encrypt_relabelled ha hb hactive (by decide)
    hsame (by decide) hagree hblob hrejected⟩

end Service

end AgileSeal
