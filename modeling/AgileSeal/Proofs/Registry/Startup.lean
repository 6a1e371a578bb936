import AgileSeal.Proofs.Registry.Configured

set_option autoImplicit false

/-! # Starting up

A configuration is *usable* when it is valid and its active suite is described and can be read
(`Config.Usable`). Every other one is refused, for one of three reasons (`Config.Refused`), with an
error that keeps the program from starting; the error says that the active suite is not known only
if the configuration is valid and does not describe it. Exactly the usable configurations make a
registry (`Registry.startup_exact`).

Suites other than the active one never keep a program from starting: those that cannot be read are
left out. What a registry has once it is built is told by `Registry.Serves`.
-/

namespace AgileSeal

/-! ## Lists of ids -/

namespace IdMap

variable {α : Type}

theorem mem_ids_iff {m : IdMap α} {id : String} : id ∈ m.ids ↔ ∃ a, m.get? id = some a := by
  rw [ids, List.mem_map]
  constructor
  · rintro ⟨⟨k, a⟩, hmem, rfl⟩
    exact ⟨a, (get?_eq_some_iff m k a).mpr hmem⟩
  · rintro ⟨a, hget⟩
    exact ⟨(id, a), (get?_eq_some_iff m id a).mp hget, rfl⟩

theorem ascending_ids (m : IdMap α) : m.ids.Pairwise (· < ·) := List.pairwise_map.mpr m.ascending

end IdMap

/-! ## Usable configurations -/

namespace Config

/-- A configuration that a program can start with. -/
def Usable (c : Config) : Prop :=
  c.validate = .ok () ∧ ∃ names suite, c.suites.get? c.active = some names ∧
    SuiteDefinition.ofNames c.active names = .ok suite

/-- Why a program cannot start with a configuration. Of the suites only the active one matters. -/
inductive Refused (c : Config) : Error → Prop
  | invalid {e : Error} (complaint : c.validate = .error e) : Refused c e
  | missing (valid : c.validate = .ok ()) (absent : c.suites.get? c.active = none) :
    Refused c (.algorithmNotFound c.active)
  | unreadable {names : SuiteNames} {e : Error} (valid : c.validate = .ok ())
    (described : c.suites.get? c.active = some names)
    (complaint : SuiteDefinition.ofNames c.active names = .error e) : Refused c e

variable {c : Config} {e : Error}

theorem usable_or_refused (c : Config) : c.Usable ∨ ∃ e, c.Refused e := by
  cases hvalid : c.validate with
  | error e => exact .inr ⟨e, .invalid hvalid⟩
  | ok =>
      cases hget : c.suites.get? c.active with
      | none => exact .inr ⟨_, .missing hvalid hget⟩
      | some names =>
          cases hread : SuiteDefinition.ofNames c.active names with
          | error e => exact .inr ⟨e, .unreadable hvalid hget hread⟩
          | ok suite => exact .inl ⟨hvalid, names, suite, hget, hread⟩

theorem Refused.not_usable (h : c.Refused e) : ¬c.Usable := by
  rintro ⟨hvalid, names, suite, hget, hread⟩
  cases h with
  | invalid complaint =>
      rw [hvalid] at complaint
      cases complaint
  | missing valid absent =>
      rw [hget] at absent
      cases absent
  | unreadable valid described complaint =>
      rw [hget] at described
      cases described
      rw [hread] at complaint
      cases complaint

/-- Every refusal keeps the program from starting. -/
theorem Refused.isStartupFatal (h : c.Refused e) : e.isStartupFatal = true := by
  cases h with
  | invalid complaint =>
      obtain ⟨detail, rfl⟩ := validate_eq_error complaint
      rfl
  | missing valid absent => rfl
  | unreadable valid described complaint =>
      obtain ⟨detail, rfl⟩ := SuiteDefinition.ofNames_eq_error complaint
      rfl

/-- The active suite is said to be unknown if nothing is wrong but that it is not described. -/
theorem Refused.unknown_iff (h : c.Refused e) : (∃ id, e = .algorithmNotFound id) ↔
    c.validate = .ok () ∧ c.suites.contains c.active = false := by
  cases h with
  | invalid complaint =>
      obtain ⟨detail, rfl⟩ := validate_eq_error complaint
      refine iff_of_false ?_ ?_
      · rintro ⟨id, hid⟩
        cases hid
      · rintro ⟨hvalid, -⟩
        rw [hvalid] at complaint
        cases complaint
  | missing valid absent =>
      refine iff_of_true ⟨_, rfl⟩ ⟨valid, ?_⟩
      rw [IdMap.contains, absent]
      rfl
  | unreadable valid described complaint =>
      obtain ⟨detail, rfl⟩ := SuiteDefinition.ofNames_eq_error complaint
      refine iff_of_false ?_ ?_
      · rintro ⟨id, hid⟩
        cases hid
      · rintro ⟨-, hcontains⟩
        rw [IdMap.contains, described] at hcontains
        cases hcontains

end Config

namespace Registry

variable {σ : Type}

/-! ## What a registry has -/

/-- A registry that serves a configuration. -/
structure Serves (r : Registry σ) (c : Config) : Prop where
  /-- Registered are the suites that can be read. -/
  registered : ∀ id, id ∈ r.registeredIds ↔ ∃ names suite, c.suites.get? id = some names ∧
    SuiteDefinition.ofNames id names = .ok suite
  /-- The registered ids are listed in ascending order, each once. -/
  ascending : r.registeredIds.Pairwise (· < ·)
  /-- Every registered id has a handler for its suite. -/
  resolves : ∀ id ∈ r.registeredIds, ∀ s, ∃ names suite handler,
    c.suites.get? id = some names ∧ SuiteDefinition.ofNames id names = .ok suite ∧
      ((resolve id).run (r, s)).value.1 = .ok handler ∧ handler.suiteId = id ∧
      handler.suite = suite
  /-- The candidates are the handlers of the registered ids in the order of the configuration. -/
  candidates : ∀ s, ∃ handlers, (Registry.candidates.run (r, s)).value.1 = handlers ∧
    (∀ h ∈ handlers, ((resolve h.suiteId).run (r, s)).value.1 = .ok h) ∧
    (∀ id, id ∈ handlers.map Handler.suiteId ↔ id ∈ c.order ∧ id ∈ r.registeredIds) ∧
    (handlers.map Handler.suiteId).Nodup ∧
    (handlers.map Handler.suiteId).Pairwise fun x y => c.order.idxOf x < c.order.idxOf y

namespace Follows

variable {r : Registry σ} {c : Config}

/-- Registered are the suites that can be read. -/
theorem mem_registeredIds_iff (h : r.Follows c) {id : String} :
    id ∈ r.registeredIds ↔ ∃ suite, c.suite? id = some suite := by
  rw [registeredIds, IdMap.mem_ids_iff]
  constructor
  · rintro ⟨slot, hslot⟩
    cases hsuite : c.suite? id with
    | none =>
        rw [h.vacant id hsuite] at hslot
        cases hslot
    | some suite => exact ⟨suite, rfl⟩
  · rintro ⟨suite, hsuite⟩
    obtain ⟨made, hslot, -⟩ := h.occupied id suite hsuite
    exact ⟨_, hslot⟩

theorem resolve_eq (h : r.Follows c) (id : String) (s : σ) :
    ((Registry.resolve id).run (r, s)).value.1 = c.answer id := by
  obtain ⟨r', hfind, -⟩ := h.find id s
  exact congrArg Prod.fst hfind

/-- **What a registry has** follows from its configuration. -/
theorem serves (h : r.Follows c) : r.Serves c := by
  refine ⟨fun id => ?_, IdMap.ascending_ids _, fun id hid s => ?_, fun s => ?_⟩
  · rw [h.mem_registeredIds_iff, exists_comm]
    exact exists_congr fun suite => Config.suite?_eq_some_iff
  · obtain ⟨suite, hsuite⟩ := h.mem_registeredIds_iff.mp hid
    obtain ⟨names, hget, hread⟩ := Config.suite?_eq_some_iff.mp hsuite
    refine ⟨names, suite, .new suite c.params, hget, hread, ?_, ?_, Handler.suite_new _ _⟩
    · rw [h.resolve_eq, Config.answer, Config.handler?_of_suite? hsuite]
    · rw [Handler.suiteId_new, Config.suite?_id hsuite]
  · obtain ⟨r', hvalue, -⟩ := h.candidates s
    refine ⟨c.candidates, congrArg Prod.fst hvalue, fun handler hmem => ?_, fun id => ?_,
      c.nodup_candidates, ?_⟩
    · obtain ⟨id, -, hid⟩ := List.mem_filterMap.mp hmem
      rw [h.resolve_eq, Config.handler?_suiteId hid, Config.answer, hid]
    · rw [c.candidates_suiteIds, List.mem_filter, List.mem_eraseDups, h.mem_registeredIds_iff]
      refine and_congr_right fun _ => ?_
      rw [Config.handler?, Option.isSome_map, Option.isSome_iff_exists]
    · rw [c.candidates_suiteIds]
      exact (pairwise_idxOf_eraseDups c.order).filter _

end Follows

/-! ## Starting -/

/-- An active suite that cannot be read stops the registration, wherever it stands. -/
theorem registerSuites_of_unreadable {active : String} {names : SuiteNames} {e : Error}
    (hread : SuiteDefinition.ofNames active names = .error e)
    {described : List (String × SuiteNames)} (hasc : described.Pairwise fun x y => x.1 < y.1)
    (hmem : (active, names) ∈ described) (b : Builder σ) :
    (registerSuites active described b).value = .error e := by
  induction described generalizing b with
  | nil => cases hmem
  | cons first rest ih =>
      obtain ⟨id, others⟩ := first
      obtain ⟨hfirst, hrest⟩ := List.pairwise_cons.mp hasc
      rcases List.mem_cons.mp hmem with heq | hlater
      · cases heq
        rw [value_registerSuites_error active rest b hread, if_pos rfl]
      · have hne : id ≠ active := by
          intro heq
          exact String.lt_irrefl active (heq ▸ hfirst _ hlater)
        cases hn : SuiteDefinition.ofNames id others with
        | ok suite =>
            rw [value_registerSuites_ok active rest b hn]
            exact ih hrest hlater _
        | error problem =>
            rw [value_registerSuites_error active rest b hn, if_neg hne]
            exact ih hrest hlater b

section

variable {c : Config}

/-- A configuration that is not valid is refused for what is wrong with it. -/
theorem ofConfig_of_invalid {e : Error} (h : c.validate = .error e) (s : σ) :
    (ofConfig c s).value = (.error e, s) := by
  rw [ofConfig, h]
  rfl

/-- A valid configuration with an active suite that cannot be read is refused for this suite. -/
theorem ofConfig_of_unreadable (hvalid : c.validate = .ok ()) {names : SuiteNames} {e : Error}
    (hget : c.suites.get? c.active = some names)
    (hread : SuiteDefinition.ofNames c.active names = .error e) (s : σ) :
    (ofConfig c s).value = (.error e, s) := by
  have hstop := registerSuites_of_unreadable hread c.suites.ascending
    ((IdMap.get?_eq_some_iff _ _ _).mp hget) (.new c : Builder σ)
  rw [ofConfig, hvalid]
  simp only [Logged.value_bind, hstop]
  rfl

/-- A valid configuration that does not describe its active suite is refused for this. -/
theorem ofConfig_of_missing (hvalid : c.validate = .ok ())
    (hget : c.suites.get? c.active = none) (s : σ) :
    (ofConfig c s).value = (.error (.algorithmNotFound c.active), s) := by
  have hreadable : ∀ names, (c.active, names) ∈ c.suites.entries →
      (SuiteDefinition.ofNames c.active names).isOk := by
    intro names hmem
    rw [(IdMap.get?_eq_some_iff _ _ _).mpr hmem] at hget
    cases hget
  obtain ⟨r, -, hvalue⟩ := value_ofConfig hvalid hreadable s
  rw [hvalue, Config.answer, Config.handler?, Config.suite?, hget]
  rfl

theorem ofConfig_of_refused {e : Error} (h : c.Refused e) (s : σ) :
    (ofConfig c s).value = (.error e, s) := by
  cases h with
  | invalid complaint => exact ofConfig_of_invalid complaint s
  | missing valid absent => exact ofConfig_of_missing valid absent s
  | unreadable valid described complaint =>
      exact ofConfig_of_unreadable valid described complaint s

/-- **Startup accepts exactly the usable configurations.** The registry it makes serves the
configuration. Every other configuration is refused with an error that keeps the program from
starting; the active suite is said to be unknown exactly if the configuration is valid and does not
describe it. -/
theorem startup_exact (c : Config) (s : σ) : ∃ result, (ofConfig c s).value = (result, s) ∧
    (result.isOk = true ↔ c.Usable) ∧
      match result with
      | .ok r => r.Serves c
      | .error e => e.isStartupFatal = true ∧ ((∃ id, e = .algorithmNotFound id) ↔
          c.validate = .ok () ∧ c.suites.contains c.active = false) := by
  rcases c.usable_or_refused with husable | ⟨e, hrefused⟩
  · obtain ⟨hvalid, names, suite, hget, hread⟩ := husable
    have hsuite : c.suite? c.active = some suite :=
      Config.suite?_eq_some_iff.mpr ⟨names, hget, hread⟩
    obtain ⟨r, hr⟩ := exists_ofConfig hvalid hsuite s
    exact ⟨_, hr, iff_of_true rfl ⟨hvalid, names, suite, hget, hread⟩,
      (follows_of_ofConfig hr).serves⟩
  · exact ⟨_, ofConfig_of_refused hrefused s,
      iff_of_false Bool.false_ne_true hrefused.not_usable, hrefused.isStartupFatal,
      hrefused.unknown_iff⟩

end

end Registry

end AgileSeal
