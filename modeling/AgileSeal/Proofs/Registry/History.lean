import AgileSeal.Proofs.Registry.Memoized
import AgileSeal.Proofs.Registry.Startup

set_option autoImplicit false

/-! # What a builder was told

A builder is told one registration after the other and forgets those it refuses. What it has in the
end is a function of the whole list: under an id stands the last registration of this id that was
not refused (`lastEntry`), and nothing if there was none (`Builder.slot_tellAll`).

This also describes the registry that is built, at any time of its life: looking up a handler keeps
every entry (`Registry.Told.find`), so a handler that is found comes from the entry of its id.
-/

namespace AgileSeal

/-- In an ascending list there is at most one entry for each id. -/
theorem IdMap.filter_eq_find? {α : Type} {l : List (String × α)}
    (h : l.Pairwise fun x y => x.1 < y.1) (id : String) :
    (l.filter fun e => e.1 = id) = (l.find? fun e => e.1 = id).toList := by
  induction l with
  | nil => rfl
  | cons e rest ih =>
      obtain ⟨first, tail⟩ := List.pairwise_cons.mp h
      by_cases hid : e.1 = id
      · have hrest : (rest.filter fun e => e.1 = id) = [] := by
          refine List.filter_eq_nil_iff.mpr fun x hx hxid => ?_
          have hlt := first x hx
          rw [hid, of_decide_eq_true hxid] at hlt
          exact String.lt_irrefl id hlt
        rw [List.filter_cons_of_pos (by simpa using hid),
          List.find?_cons_of_pos (by simpa using hid), hrest]
        rfl
      · rw [List.filter_cons_of_neg (by simpa using hid),
          List.find?_cons_of_neg (by simpa using hid), ih tail]

variable {σ : Type}

/-! ## Registrations -/

/-- An entry and the id that it is registered under. -/
structure Registration (σ : Type) where
  id : String
  entry : Entry σ

namespace Registration

/-- A registration that no builder refuses: its id is not blank and the one that its entry was made
for. -/
def accepted (call : Registration σ) : Bool :=
  !Text.isAllBlank call.id && call.entry.suiteId = call.id

theorem accepted_iff {call : Registration σ} :
    call.accepted ↔ Text.isAllBlank call.id = false ∧ call.entry.suiteId = call.id := by
  rw [accepted, Bool.and_eq_true, Bool.not_eq_true', decide_eq_true_iff]

/-- What a registration leaves under an id. -/
def entryFor? (call : Registration σ) (id : String) : Option (Entry σ) :=
  if call.accepted ∧ call.id = id then some call.entry else none

theorem entryFor?_eq_some_iff {call : Registration σ} {id : String} {entry : Entry σ} :
    call.entryFor? id = some entry ↔ call.accepted ∧ call.id = id ∧ call.entry = entry := by
  rw [entryFor?]
  by_cases h : call.accepted ∧ call.id = id
  · simp [h]
  · simp only [if_neg h, reduceCtorEq, false_iff]
    rintro ⟨haccepted, hid, -⟩
    exact h ⟨haccepted, hid⟩

end Registration

/-- The entry of the last registration of an id that is not refused. -/
def lastEntry (calls : List (Registration σ)) (id : String) : Option (Entry σ) :=
  (calls.filterMap (·.entryFor? id)).getLast?

theorem lastEntry_cons (call : Registration σ) (rest : List (Registration σ)) (id : String) :
    lastEntry (call :: rest) id = (lastEntry rest id).or (call.entryFor? id) := by
  rw [lastEntry, lastEntry, List.filterMap_cons]
  cases call.entryFor? id with
  | none => rw [Option.or_none]
  | some entry =>
      rw [List.getLast?_cons]
      cases (rest.filterMap (·.entryFor? id)).getLast? <;> rfl

/-- The last entry of an id was made for it. -/
theorem exists_of_lastEntry {calls : List (Registration σ)} {id : String} {entry : Entry σ}
    (h : lastEntry calls id = some entry) :
    ∃ call ∈ calls, call.accepted ∧ call.id = id ∧ call.entry = entry := by
  obtain ⟨call, hmem, hentry⟩ := List.mem_filterMap.mp (List.mem_of_getLast? h)
  exact ⟨call, hmem, Registration.entryFor?_eq_some_iff.mp hentry⟩

theorem suiteId_lastEntry {calls : List (Registration σ)} {id : String} {entry : Entry σ}
    (h : lastEntry calls id = some entry) : entry.suiteId = id := by
  obtain ⟨call, -, haccepted, rfl, rfl⟩ := exists_of_lastEntry h
  exact (Registration.accepted_iff.mp haccepted).2

/-- An id has a last entry when one of its registrations was not refused. -/
theorem exists_lastEntry_iff {calls : List (Registration σ)} {id : String} :
    (∃ entry, lastEntry calls id = some entry) ↔ ∃ call ∈ calls, call.accepted ∧ call.id = id := by
  constructor
  · rintro ⟨entry, h⟩
    obtain ⟨call, hmem, haccepted, hid, -⟩ := exists_of_lastEntry h
    exact ⟨call, hmem, haccepted, hid⟩
  · rintro ⟨call, hmem, haccepted, hid⟩
    have hentry : call.entry ∈ calls.filterMap (·.entryFor? id) := List.mem_filterMap.mpr
      ⟨call, hmem, Registration.entryFor?_eq_some_iff.mpr ⟨haccepted, hid, rfl⟩⟩
    have hne : calls.filterMap (·.entryFor? id) ≠ [] := List.ne_nil_of_mem hentry
    exact ⟨_, List.getLast?_eq_some_getLast hne⟩

/-! ## Builders -/

namespace Builder

/-- What a registration leaves behind, whether or not it is refused. -/
def tell (b : Builder σ) (call : Registration σ) : Builder σ :=
  (enter call.id call.entry b).value.2

/-- The builder after some registrations. -/
def tellAll (b : Builder σ) : List (Registration σ) → Builder σ
  | [] => b
  | call :: rest => (b.tell call).tellAll rest

/-- A registration that is not refused puts its entry into the slot of its id. -/
theorem enter_of_accepted (b : Builder σ) {call : Registration σ} (h : call.accepted) :
    (enter call.id call.entry b).value
      = (.ok (), { b with slots := b.slots.insert call.id ⟨call.entry, none⟩ }) := by
  obtain ⟨hblank, hid⟩ := Registration.accepted_iff.mp h
  rw [Registry.value_enter, hblank, if_neg Bool.false_ne_true, if_neg (not_not_intro hid)]

/-- A registration is refused as an invalid argument, before anything is changed. -/
theorem enter_of_not_accepted (b : Builder σ) {call : Registration σ} (h : ¬call.accepted) :
    ∃ detail, (enter call.id call.entry b).value = (.error (.invalidArgument detail), b) := by
  rw [Registry.value_enter]
  by_cases hblank : Text.isAllBlank call.id = true
  · rw [if_pos hblank]
    exact ⟨_, rfl⟩
  · rw [if_neg hblank]
    by_cases hid : call.entry.suiteId ≠ call.id
    · rw [if_pos hid]
      exact ⟨_, rfl⟩
    · exact absurd (Registration.accepted_iff.mpr
        ⟨Bool.not_eq_true _ ▸ hblank, Decidable.not_not.mp hid⟩) h

theorem register_of_accepted (b : Builder σ) {call : Registration σ} (h : call.accepted) :
    (b.register call.id call.entry).value
      = .ok { b with slots := b.slots.insert call.id ⟨call.entry, none⟩ } := by
  rw [value_register, b.enter_of_accepted h]
  rfl

theorem register_of_not_accepted (b : Builder σ) {call : Registration σ} (h : ¬call.accepted) :
    ∃ detail, (b.register call.id call.entry).value = .error (.invalidArgument detail) := by
  obtain ⟨detail, hvalue⟩ := b.enter_of_not_accepted h
  rw [value_register, hvalue]
  exact ⟨detail, rfl⟩

theorem tell_of_accepted (b : Builder σ) {call : Registration σ} (h : call.accepted) :
    b.tell call = { b with slots := b.slots.insert call.id ⟨call.entry, none⟩ } := by
  rw [tell, b.enter_of_accepted h]

theorem tell_of_not_accepted (b : Builder σ) {call : Registration σ} (h : ¬call.accepted) :
    b.tell call = b := by
  obtain ⟨detail, hvalue⟩ := b.enter_of_not_accepted h
  rw [tell, hvalue]

/-- Registrations concern the slots alone. -/
theorem settings_tellAll (b : Builder σ) (calls : List (Registration σ)) :
    (b.tellAll calls).active = b.active ∧ (b.tellAll calls).params = b.params := by
  induction calls generalizing b with
  | nil => exact ⟨rfl, rfl⟩
  | cons call rest ih =>
      obtain ⟨hactive, hparams⟩ := ih (b.tell call)
      rw [tellAll, hactive, hparams]
      by_cases h : call.accepted
      · rw [b.tell_of_accepted h]
        exact ⟨rfl, rfl⟩
      · rw [b.tell_of_not_accepted h]
        exact ⟨rfl, rfl⟩

/-- One registration: the slot of its id is filled anew, every other one is left alone. -/
theorem slot_tell (b : Builder σ) (call : Registration σ) (id : String) :
    (b.tell call).slots.get? id =
      ((call.entryFor? id).map (⟨·, none⟩)).or (b.slots.get? id) := by
  rw [Registration.entryFor?]
  by_cases h : call.accepted
  · rw [b.tell_of_accepted h, IdMap.get?_insert]
    by_cases hid : id = call.id
    · rw [if_pos hid, if_pos ⟨h, hid.symm⟩]
      rfl
    · rw [if_neg hid, if_neg fun hboth => hid hboth.2.symm]
      rfl
  · rw [b.tell_of_not_accepted h, if_neg fun hboth => h hboth.1]
    rfl

/-- All registrations: under an id stands its last entry. -/
theorem slot_tellAll (b : Builder σ) (calls : List (Registration σ)) (id : String) :
    (b.tellAll calls).slots.get? id =
      ((lastEntry calls id).map (⟨·, none⟩)).or (b.slots.get? id) := by
  induction calls generalizing b with
  | nil => rfl
  | cons call rest ih => rw [tellAll, ih, slot_tell, lastEntry_cons, Option.map_or, Option.or_assoc]

theorem isOk_build (b : Builder σ) (s : σ) : (b.build s).value.1.isOk ↔
    b.params.validate = .ok () ∧ (Registry.activeHandler.run (b.contents, s)).value.1.isOk := by
  have exists_of_isOk {α τ : Type} {x : Except Error α × τ} :
      x.1.isOk ↔ ∃ a s, x = (.ok a, s) := by
    obtain ⟨result, s⟩ := x
    cases result <;> simp [Except.isOk, Except.toBool]
  rw [exists_of_isOk, exists_of_isOk]
  constructor
  · rintro ⟨r, s', h⟩
    obtain ⟨hvalid, handler, hactive⟩ := build_eq_ok_iff.mp h
    exact ⟨hvalid, handler, (r, s'), hactive⟩
  · rintro ⟨hvalid, handler, ⟨r, s'⟩, hactive⟩
    exact ⟨r, s', build_eq_ok_iff.mpr ⟨hvalid, handler, hactive⟩⟩

end Builder

/-! ## Entries -/

namespace Entry

/-- A handler that an entry gives: itself, or what its factory makes at some time. -/
def Gives (params : Params) (handler : Handler) : Entry σ → Prop
  | ready registered => registered = handler
  | factory suite make => ∃ s s', make suite params s = (.ok handler, s')

/-- An entry whose factory, if it succeeds, makes a handler of the suite it was given. -/
def Faithful (params : Params) : Entry σ → Prop
  | ready _ => True
  | factory suite make =>
    ∀ s handler s', make suite params s = (.ok handler, s') → handler.suite = suite

/-- An entry that gives a handler in a state of the factories. -/
def resolves (params : Params) (s : σ) : Entry σ → Bool
  | ready _ => true
  | factory suite make => (make suite params s).1.isOk

/-- A handler has the id of the entry that gives it. -/
theorem Gives.suiteId_eq {params : Params} {handler : Handler} {entry : Entry σ}
    (h : entry.Gives params handler) (hfaithful : entry.Faithful params) :
    handler.suiteId = entry.suiteId := by
  cases entry with
  | ready registered => exact congrArg Handler.suiteId h.symm
  | factory suite make =>
      obtain ⟨s, s', hmake⟩ := h
      exact congrArg SuiteDefinition.id (hfaithful s handler s' hmake)

end Entry

/-! ## Registries -/

namespace Registry

/-- A registry that knows what its builder was told: under an id stands the last entry, and what is
kept in its slot comes from this entry. -/
structure Told (config : Config) (calls : List (Registration σ)) (r : Registry σ) : Prop where
  active : r.active = config.active
  params : r.params = config.params
  entry : ∀ id, (r.slots.get? id).map Slot.entry = lastEntry calls id
  made : ∀ id slot, r.slots.get? id = some slot → ∀ handler ∈ slot.made,
    slot.entry.Gives config.params handler

variable {config : Config} {calls : List (Registration σ)} {r : Registry σ}

/-- Before anything is looked up nothing is made. -/
theorem slot_contents (config : Config) (calls : List (Registration σ)) (id : String) :
    ((Builder.new config).tellAll calls).contents.slots.get? id =
      (lastEntry calls id).map (⟨·, none⟩) :=
  (Builder.slot_tellAll _ calls id).trans Option.or_none

theorem told_contents (config : Config) (calls : List (Registration σ)) :
    Told config calls ((Builder.new config).tellAll calls).contents := by
  obtain ⟨hactive, hparams⟩ := (Builder.new config : Builder σ).settings_tellAll calls
  refine ⟨hactive, hparams, fun id => ?_, fun id slot hslot handler hmade => ?_⟩
  · rw [slot_contents, Option.map_map]
    exact Option.map_id'
  · rw [slot_contents] at hslot
    obtain ⟨entry, -, rfl⟩ := Option.map_eq_some_iff.mp hslot
    cases hmade

/-- The first look-up of an id succeeds when its last entry gives a handler. -/
theorem isOk_find_contents (config : Config) (calls : List (Registration σ)) (id : String) (s : σ) :
    (((Builder.new config).tellAll calls).contents.find id s).1.isOk ↔
      ∃ entry, lastEntry calls id = some entry ∧ entry.resolves config.params s := by
  have hparams := (told_contents config calls).params
  rw [find, slot_contents]
  cases hlast : lastEntry calls id with
  | none =>
      simp [Except.isOk, Except.toBool]
  | some entry =>
      simp only [Option.some.injEq, exists_eq_left']
      cases entry with
      | ready registered => exact iff_of_true rfl rfl
      | factory suite make =>
          simp only [Option.map_some, Registry.make, Entry.resolves, hparams]
          rcases make suite config.params s with ⟨result, s'⟩
          cases result <;> rfl

namespace Told

/-- A slot holds the last entry of its id. -/
theorem lastEntry_eq (h : Told config calls r) {id : String} {slot : Slot σ}
    (hslot : r.slots.get? id = some slot) : lastEntry calls id = some slot.entry := by
  rw [← h.entry id, hslot]
  rfl

/-- Keeping a handler that the factory of a slot has made. -/
theorem keep (h : Told config calls r) {id : String} {entry : Entry σ} {handler : Handler}
    (hlast : lastEntry calls id = some entry) (hgives : entry.Gives config.params handler) :
    Told config calls { r with slots := r.slots.insert id ⟨entry, some handler⟩ } := by
  refine { h with entry := fun other => ?_, made := fun other slot hother => ?_ }
  · rw [IdMap.get?_insert]
    by_cases heq : other = id
    · rw [if_pos heq, heq, hlast]
      rfl
    · rw [if_neg heq]
      exact h.entry other
  · rw [IdMap.get?_insert] at hother
    by_cases heq : other = id
    · rw [if_pos heq] at hother
      cases hother
      intro found hfound
      exact Option.mem_some_iff.mp hfound ▸ hgives
    · rw [if_neg heq] at hother
      exact h.made other slot hother

/-- One look-up: what it finds comes from the last entry of the id, and every entry is kept. -/
theorem find (h : Told config calls r) (id : String) (s : σ) :
    Told config calls (r.find id s).2.1 ∧ ∀ handler, (r.find id s).1 = .ok handler →
      ∃ entry, lastEntry calls id = some entry ∧ entry.Gives config.params handler := by
  rw [Registry.find]
  cases hslot : r.slots.get? id with
  | none =>
      refine ⟨h, fun handler hfound => ?_⟩
      cases hfound
  | some slot =>
      have hlast := h.lastEntry_eq hslot
      have hmade := h.made id slot hslot
      obtain ⟨entry, made⟩ := slot
      cases entry with
      | ready registered =>
          exact ⟨h, fun handler hfound => ⟨_, hlast, Except.ok.inj hfound⟩⟩
      | factory suite make =>
          cases made with
          | some kept =>
              exact ⟨h, fun handler hfound => ⟨_, hlast, Except.ok.inj hfound ▸ hmade kept rfl⟩⟩
          | none =>
              simp only [Registry.make]
              rcases hrun : make suite r.params s with ⟨result, s'⟩
              cases result with
              | error e =>
                  refine ⟨h, fun handler hfound => ?_⟩
                  cases hfound
              | ok handler =>
                  have hgives : (Entry.factory suite make).Gives config.params handler :=
                    ⟨s, s', h.params ▸ hrun⟩
                  exact ⟨h.keep hlast hgives, fun found hfound =>
                    ⟨_, hlast, Except.ok.inj hfound ▸ hgives⟩⟩

/-- A registry knows the same after any look-ups. -/
theorem lookedUp {x y : Registry σ × σ} (h : Told config calls x.1) (hy : LookedUp x y) :
    Told config calls y.1 := by
  induction hy with
  | none => exact h
  | find id _ ih => exact (ih.find id _).1

/-- An id stands in a registry when one of its registrations was not refused. -/
theorem mem_registeredIds_iff (h : Told config calls r) {id : String} :
    id ∈ r.registeredIds ↔ ∃ call ∈ calls, call.accepted ∧ call.id = id := by
  rw [registeredIds, IdMap.mem_ids_iff, ← exists_lastEntry_iff, ← h.entry id]
  constructor
  · rintro ⟨slot, hslot⟩
    exact ⟨slot.entry, by rw [hslot, Option.map_some]⟩
  · rintro ⟨entry, hentry⟩
    obtain ⟨slot, hslot, -⟩ := Option.map_eq_some_iff.mp hentry
    exact ⟨slot, hslot⟩

/-- Under each id stands at most one entry. -/
theorem entries_eq (h : Told config calls r) (id : String) :
    (r.slots.entries.filter fun e => e.1 = id).map (·.2.entry) = (lastEntry calls id).toList := by
  rw [IdMap.filter_eq_find? r.slots.ascending, ← h.entry id, IdMap.get?]
  cases r.slots.entries.find? fun e => e.1 = id <;> rfl

end Told

/-- The registries that come from a builder: the one that is built, and what looking up handlers
makes of it. -/
inductive Comes (b : Builder σ) : Registry σ → Prop
  | build {s s' : σ} {r : Registry σ} (h : (b.build s).value = (.ok r, s')) : Comes b r
  | find {r : Registry σ} (id : String) (s : σ) (h : Comes b r) : Comes b (r.find id s).2.1

/-- **A registry knows what its builder was told**, at any time of its life. -/
theorem Comes.told (h : Comes ((Builder.new config).tellAll calls) r) : Told config calls r := by
  induction h with
  | @build s s' r hbuild =>
      obtain ⟨-, handler, hactive⟩ := Builder.build_eq_ok_iff.mp hbuild
      have hlookedUp := lookedUp_activeHandler (((Builder.new config).tellAll calls).contents, s)
      rw [hactive] at hlookedUp
      exact (told_contents config calls).lookedUp hlookedUp
  | find id s _ ih => exact (ih.find id s).1

/-- A registry is built exactly when the parameters are valid, the active id is not blank and its
last entry gives a handler. -/
theorem isOk_build_iff (config : Config) (calls : List (Registration σ)) (s : σ) :
    (((Builder.new config).tellAll calls).build s).value.1.isOk ↔
      config.params.validate = .ok () ∧ Text.isAllBlank config.active = false ∧
        ∃ entry, lastEntry calls config.active = some entry ∧
          entry.resolves config.params s := by
  obtain ⟨hactive, hparams⟩ := (Builder.new config : Builder σ).settings_tellAll calls
  have hrun := run_activeHandler ((Builder.new config).tellAll calls).contents s
  rw [show ((Builder.new config : Builder σ).tellAll calls).contents.active = config.active from
    hactive] at hrun
  rw [Builder.isOk_build, hparams, hrun]
  refine and_congr_right fun _ => ?_
  rw [← isOk_find_contents]
  by_cases hblank : Text.isAllBlank config.active = true
  · simp [hblank, Except.isOk, Except.toBool]
  · simp [hblank]

/-- A handler that is found under an id has this id, if the factories keep to their suites. -/
theorem Told.suiteId_of_find (h : Told config calls r)
    (hfaithful : ∀ call ∈ calls, call.entry.Faithful config.params) {id : String} {s : σ}
    {handler : Handler} (hfound : (r.find id s).1 = .ok handler) : handler.suiteId = id := by
  obtain ⟨entry, hlast, hgives⟩ := (h.find id s).2 handler hfound
  obtain ⟨call, hmem, -, -, rfl⟩ := exists_of_lastEntry hlast
  rw [hgives.suiteId_eq (hfaithful call hmem), suiteId_lastEntry hlast]

end Registry

/-- **The last registration counts.** Whatever a builder has been told, it refuses a registration
exactly when its id is blank or not the one that the entry was made for, and stays as it was. A
registry is built exactly when the parameters are valid, the active id is not blank and its last
entry gives a handler. It then holds, at any time of its life, one entry for every id that was
registered and not refused, the last one; it lists these ids in ascending order; and what it finds
under an id has this id, if the factories keep to their suites. -/
theorem Builder.last_registration_counts (config : Config) (calls : List (Registration σ)) :
    let b := (Builder.new config).tellAll calls
    (∀ call : Registration σ,
      ((∃ detail, (b.register call.id call.entry).value = .error (.invalidArgument detail)) ↔
        Text.isAllBlank call.id ∨ call.entry.suiteId ≠ call.id) ∧
      ((b.register call.id call.entry).value.isOk ↔ call.accepted) ∧
      (¬call.accepted → b.tell call = b)) ∧
    (∀ s, (b.build s).value.1.isOk ↔
      config.params.validate = .ok () ∧ Text.isAllBlank config.active = false ∧
        ∃ entry, lastEntry calls config.active = some entry ∧
          entry.resolves config.params s) ∧
    ∀ r, Registry.Comes b r →
      (∀ id, (r.slots.entries.filter fun e => e.1 = id).map (·.2.entry)
        = (lastEntry calls id).toList) ∧
      (∀ id, id ∈ r.registeredIds ↔ ∃ call ∈ calls, call.accepted ∧ call.id = id) ∧
      r.registeredIds.Pairwise (· < ·) ∧
      ((∀ call ∈ calls, call.entry.Faithful config.params) →
        ∀ id s handler, ((Registry.resolve id).run (r, s)).value.1 = .ok handler →
          handler.suiteId = id) := by
  intro b
  refine ⟨fun call => ?_, Registry.isOk_build_iff config calls, fun r hr => ?_⟩
  · have haccepted : ¬call.accepted ↔ Text.isAllBlank call.id ∨ call.entry.suiteId ≠ call.id := by
      rw [Registration.accepted_iff, not_and_or, Bool.not_eq_false]
    rw [← haccepted]
    refine ⟨?_, ?_, b.tell_of_not_accepted⟩
    · refine ⟨?_, b.register_of_not_accepted⟩
      rintro ⟨detail, hrefused⟩ h
      rw [b.register_of_accepted h] at hrefused
      cases hrefused
    · by_cases h : call.accepted
      · rw [b.register_of_accepted h]
        exact iff_of_true rfl h
      · obtain ⟨detail, hrefused⟩ := b.register_of_not_accepted h
        rw [hrefused]
        exact iff_of_false Bool.false_ne_true h
  · have htold := hr.told
    exact ⟨htold.entries_eq, fun id => htold.mem_registeredIds_iff, IdMap.ascending_ids _,
      fun hfaithful id s handler => htold.suiteId_of_find hfaithful⟩

/-- A handler and a factory for one id, and between them two registrations that are refused. -/
def sampleCalls : List (Registration Nat) :=
  [⟨"steady", .ready (.new (sampleSuite "steady" .passphrase) sampleParams)⟩, ⟨" ", sampleSteady⟩,
    ⟨"moody", sampleSteady⟩, ⟨"steady", sampleSteady⟩]

/-- The factory has replaced the handler, and what it makes has the id. -/
theorem Builder.last_registration_counts_steady : ∃ (config : Config) (r : Registry Nat)
    (handler : Handler), Registry.Comes ((Builder.new config).tellAll sampleCalls) r ∧
      (r.slots.entries.filter fun e => e.1 = "steady").map (·.2.entry) = [sampleSteady] ∧
      (∀ call ∈ sampleCalls, call.entry.Faithful config.params) ∧
      ((Registry.resolve "steady").run (r, 0)).value.1 = .ok handler ∧
      handler.suiteId = "steady" := by
  let config : Config := .new "steady" ["steady"] sampleParams
  have hvalid : config.params.validate = .ok () := rfl
  have hactive : Text.isAllBlank "steady" = false := by decide
  have hlast : lastEntry sampleCalls "steady" = some sampleSteady := rfl
  have hstandard (suite : SuiteDefinition) (s : Nat) :
      Factory.standard suite config.params s = (.ok (.new suite config.params), s) := by
    rw [Factory.standard, Handler.ofDefinition_of_validate hvalid]
  have hsteady : sampleSteady.Faithful config.params := by
    intro s handler s' hmake
    rw [hstandard] at hmake
    cases hmake
    exact Handler.suite_new _ _
  have hfaithful : ∀ call ∈ sampleCalls, call.entry.Faithful config.params := by
    intro call hmem
    simp only [sampleCalls, List.mem_cons, List.not_mem_nil, or_false] at hmem
    rcases hmem with rfl | rfl | rfl | rfl
    · trivial
    all_goals exact hsteady
  obtain ⟨-, hbuilds, hcomes⟩ := Builder.last_registration_counts config sampleCalls
  have hbuilt := (hbuilds 0).mpr ⟨hvalid, hactive, sampleSteady, hlast, rfl⟩
  rcases hvalue : (((Builder.new config).tellAll sampleCalls).build 0).value with ⟨result, s⟩
  rw [hvalue] at hbuilt
  cases result with
  | error e => cases hbuilt
  | ok r =>
      have hr := Registry.Comes.build hvalue
      obtain ⟨hentries, -, -, hids⟩ := hcomes r hr
      obtain ⟨⟨entry, made⟩, hslot, rfl⟩ :=
        Option.map_eq_some_iff.mp ((hr.told.entry "steady").trans hlast)
      obtain ⟨handler, hfound⟩ : ∃ handler,
          ((Registry.resolve "steady").run (r, 0)).value.1 = .ok handler := by
        show ∃ handler, (r.find "steady" 0).1 = .ok handler
        rw [Registry.find, hslot]
        cases made with
        | some kept => exact ⟨kept, rfl⟩
        | none =>
            refine ⟨.new (sampleSuite "steady" .keyFile) config.params, ?_⟩
            show (r.make "steady" (sampleSuite "steady" .keyFile) Factory.standard 0).1 = _
            rw [Registry.make, hr.told.params, hstandard]
      exact ⟨config, r, handler, hr, hentries "steady", hfaithful, hfound,
        hids hfaithful "steady" 0 handler hfound⟩

end AgileSeal
