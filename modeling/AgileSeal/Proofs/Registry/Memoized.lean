import AgileSeal.Proofs.Handler.RoundTrip
import AgileSeal.Proofs.Service.Lookups

set_option autoImplicit false

/-! # Factories run until they succeed

A factory may do anything: it has a state, which others may change too, and it fails at some times
and succeeds at others. To say when it is run, the runs are recorded (`Factory.recorded`): a record
lists the runs of all factories of a registry, the oldest first, from the time before it was built.

The slots of a registry are a function of this record: in the slot of an id is what the first
successful run made (`Registry.Memoized`). A look-up preserves this (`Memoized.find`), so it holds
whatever a service is asked (`Service.factories_memoized`).
-/

namespace AgileSeal

variable {σ : Type}

/-! ## The record -/

/-- One run of the factory that is registered under an id. -/
structure FactoryCall where
  id : String
  result : Except Error Handler

/-- The state of factories and the runs so far, the oldest first. -/
structure Recording (σ : Type) where
  state : σ
  calls : List FactoryCall

/-- A factory that does what another does and records it. -/
def Factory.recorded (make : Factory σ) : Factory (Recording σ) := fun suite params s =>
  ((make suite params s.state).1,
    ⟨(make suite params s.state).2, s.calls ++ [⟨suite.id, (make suite params s.state).1⟩]⟩)

/-- An entry with its factory recorded. -/
def Entry.recorded : Entry σ → Entry (Recording σ)
  | .ready handler => .ready handler
  | .factory suite make => .factory suite make.recorded

/-- No factory was run again after it had succeeded. -/
def FactoryCall.Once (calls : List FactoryCall) : Prop :=
  calls.Pairwise fun earlier later => earlier.result.isOk = true → later.id ≠ earlier.id

/-- What a run made for an id. -/
def FactoryCall.made (call : FactoryCall) (id : String) : Option Handler :=
  if call.id = id then call.result.toOption else none

theorem FactoryCall.made_eq_some_iff {call : FactoryCall} {id : String} {handler : Handler} :
    call.made id = some handler ↔ call = ⟨id, .ok handler⟩ := by
  obtain ⟨id', result⟩ := call
  unfold made
  by_cases hid : id' = id
  · subst hid
    rw [if_pos rfl]
    cases result with
    | error e => simp [Except.toOption]
    | ok found => simp [Except.toOption]
  · rw [if_neg hid]
    simp [hid]

namespace Recording

/-- What the first successful run made for an id. -/
def made (s : Recording σ) (id : String) : Option Handler := s.calls.findSome? (·.made id)

variable {s : Recording σ} {id : String}

theorem made_eq_none_iff : s.made id = none ↔ ∀ handler, ⟨id, .ok handler⟩ ∉ s.calls := by
  unfold made
  rw [List.findSome?_eq_none_iff]
  constructor
  · intro h handler hmem
    have hmade := FactoryCall.made_eq_some_iff.mpr (rfl : (⟨id, .ok handler⟩ : FactoryCall) = _)
    rw [h _ hmem] at hmade
    cases hmade
  · intro h call hmem
    rw [Option.eq_none_iff_forall_ne_some]
    intro handler hmade
    rw [FactoryCall.made_eq_some_iff.mp hmade] at hmem
    exact h handler hmem

/-- If no factory is run again after it has succeeded, what a run made is what the first one did. -/
theorem made_of_mem (honce : FactoryCall.Once s.calls) {handler : Handler}
    (hmem : ⟨id, .ok handler⟩ ∈ s.calls) : s.made id = some handler := by
  unfold made
  induction hcalls : s.calls generalizing s with
  | nil =>
      rw [hcalls] at hmem
      cases hmem
  | cons first rest ih =>
      rw [hcalls] at hmem honce
      obtain ⟨hfirst, hrest⟩ := List.pairwise_cons.mp honce
      rcases List.mem_cons.mp hmem with rfl | hlater
      · rw [List.findSome?_cons, FactoryCall.made_eq_some_iff.mpr rfl]
      · have hnone : first.made id = none := by
          rw [Option.eq_none_iff_forall_ne_some]
          intro found hfound
          rw [FactoryCall.made_eq_some_iff] at hfound
          subst hfound
          exact hfirst _ hlater rfl rfl
        rw [List.findSome?_cons, hnone]
        exact ih (s := ⟨s.state, rest⟩) hrest hlater rfl

/-- The record after one more run. -/
def after (s : Recording σ) (id : String) (outcome : Except Error Handler × σ) : Recording σ :=
  ⟨outcome.2, s.calls ++ [⟨id, outcome.1⟩]⟩

theorem made_after (s : Recording σ) (id other : String) (outcome : Except Error Handler × σ) :
    (s.after id outcome).made other
      = (s.made other).or ((⟨id, outcome.1⟩ : FactoryCall).made other) := by
  unfold made after
  rw [List.findSome?_append, List.findSome?_singleton]

/-- A run is the first to succeed if nothing has been made. -/
theorem once_after (honce : FactoryCall.Once s.calls) (hnone : s.made id = none)
    (outcome : Except Error Handler × σ) : FactoryCall.Once (s.after id outcome).calls := by
  refine List.pairwise_append.mpr ⟨honce, List.pairwise_singleton _ _, ?_⟩
  intro earlier hearlier later hlater hok heq
  rw [List.mem_singleton.mp hlater] at heq
  obtain ⟨id', result⟩ := earlier
  cases result with
  | error e => cases hok
  | ok handler =>
      have hid : id = id' := heq
      subst hid
      exact made_eq_none_iff.mp hnone handler hearlier

end Recording

/-! ## Registries -/

/-- What has been registered, with recorded factories. -/
inductive Builder.Records : Builder (Recording σ) → Prop
  | new (config : Config) : Records (.new config)
  | register {b b' : Builder (Recording σ)} {id : String} (entry : Entry σ) (h : Records b)
    (hvalue : (b.register id entry.recorded).value = .ok b') : Records b'

theorem Entry.suiteId_recorded (entry : Entry σ) : entry.recorded.suiteId = entry.suiteId := by
  cases entry <;> rfl

/-- Registering puts an entry into the slot of its id. -/
theorem Builder.register_eq_ok {b b' : Builder σ} {id : String} {entry : Entry σ}
    (h : (b.register id entry).value = .ok b') :
    entry.suiteId = id ∧ b' = { b with slots := b.slots.insert id ⟨entry, none⟩ } := by
  rw [Registry.value_register_eq] at h
  by_cases hblank : Text.isAllBlank id = true
  · rw [if_pos hblank] at h
    cases h
  · rw [if_neg hblank] at h
    by_cases hid : entry.suiteId ≠ id
    · rw [if_pos hid] at h
      cases h
    · rw [if_neg hid] at h
      exact ⟨Decidable.not_not.mp hid, (Except.ok.inj h).symm⟩

/-- In every slot waits an entry for the id of the slot. -/
theorem Builder.Records.slot {b : Builder (Recording σ)} (h : b.Records) {id : String}
    {slot : Slot (Recording σ)} (hslot : b.slots.get? id = some slot) :
    ∃ entry : Entry σ, entry.suiteId = id ∧ slot = ⟨entry.recorded, none⟩ := by
  induction h with
  | new config => cases hslot
  | register entry _ hvalue ih =>
      obtain ⟨hid, rfl⟩ := register_eq_ok hvalue
      rw [IdMap.get?_insert] at hslot
      split at hslot
      · rename_i heq
        subst heq
        exact ⟨entry, entry.suiteId_recorded ▸ hid, (Option.some.inj hslot).symm⟩
      · exact ih hslot

/-- A registry with what has been registered, before its active suite has been looked up. -/
def Builder.contents (b : Builder σ) : Registry σ := ⟨b.active, b.order, b.params, b.slots⟩

/-- A registry is built when the parameters are valid and the active suite has a handler. -/
theorem Builder.build_eq_ok_iff {b : Builder σ} {s s' : σ} {r : Registry σ} :
    (b.build s).value = (.ok r, s') ↔ b.params.validate = .ok () ∧
      ∃ handler, (Registry.activeHandler.run (b.contents, s)).value = (.ok handler, r, s') := by
  unfold build
  cases b.params.validate with
  | error e => simp
  | ok =>
      rw [and_iff_right rfl]
      simp only [Logged.value_bind]
      show _ ↔ ∃ handler, (Registry.activeHandler.run
        ((⟨b.active, b.order, b.params, b.slots⟩ : Registry σ), s)).value = _
      rcases (Registry.activeHandler.run
        ((⟨b.active, b.order, b.params, b.slots⟩ : Registry σ), s)).value with ⟨result, r', s₁⟩
      cases result with
      | error e =>
          show (Except.error e, s₁) = (Except.ok r, s') ↔ _
          simp
      | ok handler =>
          show (Except.ok r', s₁) = (Except.ok r, s') ↔ _
          simp

namespace Registry

/-- **What is in the slots**: under an id stands what was registered, and what the first successful
run has made. Only factories that were registered have been run. -/
structure Memoized (b : Builder (Recording σ)) (r : Registry (Recording σ)) (s : Recording σ) :
    Prop where
  params : r.params = b.params
  slots : ∀ id, r.slots.get? id = (b.slots.get? id).map fun slot => ⟨slot.entry, s.made id⟩
  once : FactoryCall.Once s.calls
  known : ∀ call ∈ s.calls, ∃ suite make, b.slots.get? call.id = some ⟨.factory suite make, none⟩

namespace Memoized

variable {b : Builder (Recording σ)} {r : Registry (Recording σ)} {s : Recording σ} {id : String}

theorem find_vacant (h : Memoized b r s) (hslot : b.slots.get? id = none) :
    r.find id s = (.error (.algorithmNotFound id), r, s) := by
  have hget := h.slots id
  rw [hslot, Option.map_none] at hget
  rw [Registry.find, hget]

theorem find_ready (h : Memoized b r s) {handler : Handler} {made : Option Handler}
    (hslot : b.slots.get? id = some ⟨.ready handler, made⟩) :
    r.find id s = (.ok handler, r, s) := by
  have hget := h.slots id
  rw [hslot, Option.map_some] at hget
  rw [Registry.find, hget]

theorem find_made (h : Memoized b r s) {suite : SuiteDefinition} {make : Factory (Recording σ)}
    {made : Option Handler} (hslot : b.slots.get? id = some ⟨.factory suite make, made⟩)
    {handler : Handler} (hmade : s.made id = some handler) :
    r.find id s = (.ok handler, r, s) := by
  have hget := h.slots id
  rw [hslot, Option.map_some, hmade] at hget
  rw [Registry.find, hget]

/-- A factory that has not succeeded is run, and its slot keeps what it makes. -/
theorem find_unmade (h : Memoized b r s) {suite : SuiteDefinition} {make : Factory σ}
    (hslot : b.slots.get? id = some ⟨.factory suite make.recorded, none⟩) (hid : suite.id = id)
    (hmade : s.made id = none) : ∃ r',
      r.find id s
          = ((make suite b.params s.state).1, r', s.after id (make suite b.params s.state)) ∧
        Memoized b r' (s.after id (make suite b.params s.state)) ∧
        (∀ other, other ≠ id → r'.slots.get? other = r.slots.get? other) ∧
        ∀ e, (make suite b.params s.state).1 = .error e → r' = r := by
  have hget := h.slots id
  rw [hslot, Option.map_some, hmade] at hget
  have hother : ∀ other, other ≠ id → ∀ outcome : Except Error Handler × σ,
      (s.after id outcome).made other = s.made other := by
    intro other hne outcome
    rw [Recording.made_after, FactoryCall.made, if_neg (Ne.symm hne), Option.or_none]
  have honce := Recording.once_after h.once hmade (make suite b.params s.state)
  have hknown : ∀ call ∈ (s.after id (make suite b.params s.state)).calls, ∃ suite make,
      b.slots.get? call.id = some ⟨.factory suite make, none⟩ := by
    intro call hcall
    rcases List.mem_append.mp hcall with hold | hnew
    · exact h.known call hold
    · rw [List.mem_singleton.mp hnew]
      exact ⟨suite, make.recorded, hslot⟩
  rw [Registry.find, hget]
  simp only [Registry.make, Factory.recorded, h.params, hid]
  rcases hrun : make suite b.params s.state with ⟨result, state⟩
  rw [hrun] at honce hknown
  cases result with
  | error e =>
      refine ⟨r, rfl, ⟨h.params, fun other => ?_, honce, hknown⟩, fun _ _ => rfl, fun _ _ => rfl⟩
      rw [h.slots other, Recording.made_after]
      have hnothing : (⟨id, .error e⟩ : FactoryCall).made other = none := by
        unfold FactoryCall.made
        split <;> rfl
      rw [hnothing, Option.or_none]
  | ok handler =>
      refine ⟨_, rfl, ⟨rfl, fun other => ?_, honce, hknown⟩, fun other hne => ?_, ?_⟩
      · show (r.slots.insert id _).get? other = _
        rw [IdMap.get?_insert]
        by_cases heq : other = id
        · subst heq
          rw [if_pos rfl, hslot, Option.map_some, Recording.made_after, hmade,
            FactoryCall.made_eq_some_iff.mpr rfl]
          rfl
        · rw [if_neg heq, h.slots other, hother other heq]
      · show (r.slots.insert id _).get? other = _
        rw [IdMap.get?_insert, if_neg hne]
      · intro e he
        cases he

/-- **A look-up** leaves the slots as the record says, and the record only grows. -/
theorem find (h : Memoized b r s) (hb : b.Records) (id : String) :
    Memoized b (r.find id s).2.1 (r.find id s).2.2 ∧ s.calls <+: (r.find id s).2.2.calls := by
  cases hslot : b.slots.get? id with
  | none =>
      rw [h.find_vacant hslot]
      exact ⟨h, List.prefix_rfl⟩
  | some slot =>
      obtain ⟨entry, hid, rfl⟩ := hb.slot hslot
      cases entry with
      | ready handler =>
          rw [h.find_ready hslot]
          exact ⟨h, List.prefix_rfl⟩
      | factory suite make =>
          cases hmade : s.made id with
          | some handler =>
              rw [h.find_made hslot hmade]
              exact ⟨h, List.prefix_rfl⟩
          | none =>
              obtain ⟨r', hfind, hkept, -⟩ := h.find_unmade hslot hid hmade
              rw [hfind]
              exact ⟨hkept, List.prefix_append _ _⟩

/-- **Look-ups in a row**. -/
theorem lookedUp {x y : Registry (Recording σ) × Recording σ} (h : Memoized b x.1 x.2)
    (hb : b.Records) (hxy : LookedUp x y) : Memoized b y.1 y.2 ∧ x.2.calls <+: y.2.calls := by
  induction hxy with
  | none => exact ⟨h, List.prefix_rfl⟩
  | find id _ ih =>
      obtain ⟨hkept, hgrown⟩ := ih
      obtain ⟨hnext, hmore⟩ := hkept.find hb id
      exact ⟨hnext, hgrown.trans hmore⟩

end Memoized

/-- A registry is built by a look-up of the active suite. -/
theorem memoized_of_build {b : Builder (Recording σ)} (hb : b.Records) {state : σ}
    {r : Registry (Recording σ)} {s : Recording σ}
    (h : (b.build ⟨state, []⟩).value = (.ok r, s)) : Memoized b r s := by
  have hunchecked : Memoized b b.contents ⟨state, []⟩ := by
    refine ⟨rfl, fun id => ?_, .nil, List.forall_mem_nil _⟩
    show b.slots.get? id = _
    cases hslot : b.slots.get? id with
    | none => rfl
    | some slot =>
        obtain ⟨entry, -, rfl⟩ := hb.slot hslot
        rfl
  obtain ⟨-, handler, hactive⟩ := Builder.build_eq_ok_iff.mp h
  have hlookedUp := lookedUp_activeHandler (b.contents, (⟨state, []⟩ : Recording σ))
  rw [hactive] at hlookedUp
  exact (hunchecked.lookedUp hb hlookedUp).1

end Registry

/-! ## Services -/

/-- What a service may become in the course of time: it is asked for something, and meanwhile the
state of the factories, the random bytes and the files may change in any way. -/
inductive World.Later (w : World (Recording σ)) : World (Recording σ) → Prop
  | now : Later w w
  | asked {v : World (Recording σ)} (request : Request) (h : Later w v) : Later w (request.run v)
  | meanwhile {v : World (Recording σ)} (state : σ) (random : RandomStream) (files : FileSystem)
    (h : Later w v) : Later w ⟨v.registry, ⟨state, v.factories.calls⟩, random, files⟩

theorem Registry.Memoized.later {b : Builder (Recording σ)} (hb : b.Records)
    {w v : World (Recording σ)} (h : Memoized b w.registry w.factories) (hv : w.Later v) :
    Memoized b v.registry v.factories ∧ w.factories.calls <+: v.factories.calls := by
  induction hv with
  | now => exact ⟨h, List.prefix_rfl⟩
  | asked request _ ih =>
      obtain ⟨hkept, hgrown⟩ := ih
      obtain ⟨hnext, hmore⟩ := hkept.lookedUp hb (request.looksUp _)
      exact ⟨hnext, hgrown.trans hmore⟩
  | meanwhile state random files _ ih =>
      obtain ⟨hkept, hgrown⟩ := ih
      exact ⟨⟨hkept.params, hkept.slots, hkept.once, hkept.known⟩, hgrown⟩

namespace Service

/-- A look-up that runs the factory of its id. -/
structure Runs (b : Builder (Recording σ)) (id : String) (suite : SuiteDefinition)
    (make : Factory (Recording σ)) (w w' : World (Recording σ)) : Prop where
  /-- The answer is that of the factory, whether it succeeds or fails. -/
  answer : (resolve id w).value = ((make suite b.params w.factories).1, w')
  factories : w'.factories = (make suite b.params w.factories).2
  /-- It is run once, and no other factory is. -/
  called : w'.factories.calls = w.factories.calls ++ [⟨id, (make suite b.params w.factories).1⟩]
  /-- No other slot changes. -/
  others : ∀ other, other ≠ id → w'.registry.slots.get? other = w.registry.slots.get? other
  /-- If it fails, nothing changes. -/
  failed : ∀ e, (make suite b.params w.factories).1 = .error e → w'.registry = w.registry

/-- What a service does with its factories. -/
structure Memoizes (b : Builder (Recording σ)) (w : World (Recording σ)) : Prop where
  /-- No factory has been run again after it had succeeded. -/
  once : FactoryCall.Once w.factories.calls
  /-- A handler once made is the answer for ever, and what has been run stays on the record. -/
  kept : ∀ v, w.Later v → w.factories.calls <+: v.factories.calls ∧
    ∀ id handler, ⟨id, .ok handler⟩ ∈ w.factories.calls → (resolve id v).value = (.ok handler, v)
  /-- Where nothing is registered, nothing is found. -/
  vacant : ∀ id, b.slots.get? id = none →
    (resolve id w).value = (.error (.algorithmNotFound id), w)
  /-- A handler that was registered is the answer. -/
  ready : ∀ id handler made, b.slots.get? id = some ⟨.ready handler, made⟩ →
    (resolve id w).value = (.ok handler, w)
  /-- A factory that has not succeeded is run, and if it fails, it is run the next time. -/
  runs : ∀ id suite make made, b.slots.get? id = some ⟨.factory suite make, made⟩ →
    (∀ handler, ⟨id, .ok handler⟩ ∉ w.factories.calls) → ∃ w', Runs b id suite make w w' ∧
      ((make suite b.params w.factories).1.isOk = false → ∃ w'', Runs b id suite make w' w'')

theorem exists_runs {b : Builder (Recording σ)} (hb : b.Records) {w : World (Recording σ)}
    (h : Registry.Memoized b w.registry w.factories) {id : String} {suite : SuiteDefinition}
    {make : Factory (Recording σ)} {made : Option Handler}
    (hslot : b.slots.get? id = some ⟨.factory suite make, made⟩)
    (hmade : w.factories.made id = none) : ∃ w', Runs b id suite make w w' ∧
      Registry.Memoized b w'.registry w'.factories := by
  obtain ⟨entry, hid, hentry⟩ := hb.slot hslot
  cases entry with
  | ready handler => cases hentry
  | factory suite' plain =>
      cases hentry
      obtain ⟨r', hfind, hkept, hothers, hfailed⟩ := h.find_unmade hslot hid hmade
      have hcall : plain.recorded suite b.params w.factories
          = ((plain suite b.params w.factories.state).1,
            w.factories.after id (plain suite b.params w.factories.state)) := by
        have hname : suite.id = id := hid
        rw [Factory.recorded, hname]
        rfl
      refine ⟨{ w with registry := r', factories := w.factories.after id _ }, ?_, hkept⟩
      refine ⟨?_, ?_, ?_, hothers, ?_⟩
      · rw [resolve_eq_find, hfind, hcall]
      · rw [hcall]
      · rw [hcall]
        rfl
      · rw [hcall]
        exact hfailed

/-- **Factories run until they succeed.** At any time in the life of a service whose registry was
built from any entries, no factory has been run again after it had succeeded, not even when the
registry was built; what it made is the answer for ever. Before that every look-up runs it again. -/
theorem factories_memoized {b : Builder (Recording σ)} (hb : b.Records) {state : σ}
    {first w : World (Recording σ)}
    (hfirst : (b.build ⟨state, []⟩).value = (.ok first.registry, first.factories))
    (hw : first.Later w) : Memoizes b w := by
  obtain ⟨hmemo, -⟩ := (Registry.memoized_of_build hb hfirst).later hb hw
  refine ⟨hmemo.once, fun v hv => ?_, fun id hslot => ?_, fun id handler made hslot => ?_,
    fun id suite make made hslot hnone => ?_⟩
  · obtain ⟨hlater, hgrown⟩ := hmemo.later hb hv
    refine ⟨hgrown, fun id handler hmem => ?_⟩
    obtain ⟨suite, make, hslot⟩ := hmemo.known _ hmem
    have hmade := Recording.made_of_mem hlater.once (hgrown.subset hmem)
    rw [resolve_eq_find, hlater.find_made hslot hmade]
  · rw [resolve_eq_find, hmemo.find_vacant hslot]
  · rw [resolve_eq_find, hmemo.find_ready hslot]
  · obtain ⟨w', hruns, hnext⟩ := exists_runs hb hmemo hslot (Recording.made_eq_none_iff.mpr hnone)
    refine ⟨w', hruns, fun hfails => ?_⟩
    have hagain : w'.factories.made id = none := by
      rw [Recording.made_eq_none_iff, hruns.called]
      intro handler hmem
      rcases List.mem_append.mp hmem with hold | hnew
      · exact hnone handler hold
      · have hresult : .ok handler = (make suite b.params w.factories).1 :=
          congrArg FactoryCall.result (List.mem_singleton.mp hnew)
        rw [← hresult] at hfails
        cases hfails
    obtain ⟨w'', hruns', -⟩ := exists_runs hb hnext hslot hagain
    exact ⟨w'', hruns'⟩

end Service

/-! ## A sample -/

/-- An entry with the standard factory. -/
def sampleSteady : Entry Nat := .factory (sampleSuite "steady" .keyFile) .standard

/-- An entry with a factory that fails when it is run for the first time. -/
def sampleMoody : Entry Nat := .factory (sampleSuite "moody" .keyFile) fun suite params runs =>
  (if runs = 0 then .error (.configuration "not yet") else Handler.ofDefinition suite params,
    runs + 1)

/-- A builder in which both entries are registered. -/
def sampleBuilder : Builder (Recording Nat) where
  active := "steady"
  order := ["moody", "steady"]
  params := sampleParams
  slots := (IdMap.empty.insert "steady" ⟨sampleSteady.recorded, none⟩).insert "moody"
    ⟨sampleMoody.recorded, none⟩

/-- A service with the registry that the builder builds. -/
def sampleBuilt : World (Recording Nat) where
  registry := ⟨"steady", ["moody", "steady"], sampleParams, sampleBuilder.slots.insert "steady"
    ⟨sampleSteady.recorded, some (.new (sampleSuite "steady" .keyFile) sampleParams)⟩⟩
  factories := ⟨0, [⟨"steady", .ok (.new (sampleSuite "steady" .keyFile) sampleParams)⟩]⟩
  random := sampleStream
  files := .emptyAt []

namespace Service

/-- The factory of the active suite `steady` is run when the registry is built; that of `moody`
fails when the candidates are listed, succeeds when its suite is looked up, and is not run any
more. -/
theorem factories_memoized_moody : ∃ w : World (Recording Nat), sampleBuilder.Records ∧
    (sampleBuilder.build ⟨0, []⟩).value = (.ok sampleBuilt.registry, sampleBuilt.factories) ∧
      w.factories.calls.map (fun call => (call.id, call.result.isOk))
        = [("steady", true), ("moody", false), ("moody", true)] ∧ Memoizes sampleBuilder w := by
  have hnew := Builder.Records.new (σ := Nat) (.new "steady" ["moody", "steady"] sampleParams)
  have hsteady := hnew.register sampleSteady (rfl : (Builder.register _ "steady" _).value = _)
  have hrecords : sampleBuilder.Records :=
    hsteady.register sampleMoody (rfl : (Builder.register _ "moody" _).value = _)
  have hbuilt : (sampleBuilder.build ⟨0, []⟩).value
      = (.ok sampleBuilt.registry, sampleBuilt.factories) := rfl
  have hlater : sampleBuilt.Later (Request.candidates.run
      ((Request.resolve "moody").run (Request.candidates.run sampleBuilt))) :=
    .asked _ (.asked _ (.asked _ .now))
  exact ⟨_, hrecords, hbuilt, rfl, factories_memoized hrecords hbuilt hlater⟩

end Service

end AgileSeal
