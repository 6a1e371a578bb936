import AgileSeal.Proofs.Config.Source
import AgileSeal.Proofs.Suite.Names
import AgileSeal.Registry.Builder
import Mathlib.Data.List.Basic

set_option autoImplicit false

/-! # Registries that come from a configuration

What a registry answers is a function of the configuration it was built from
(`Config.handler?`, `Config.candidates`). A registry *follows* a configuration when it has the
same active id, order and parameters and its slots hold the standard factories of the suites
that can be read, each with nothing made or with the handler its factory makes (`Follows`).
Building establishes this (`follows_of_ofConfig`) and looking up a handler preserves it
(`Follows.find`), so it holds of a registry at any time of its life (`Built.follows`).
-/

namespace AgileSeal

/-! ## Order without repetitions -/

section

variable {α : Type} [BEq α] [LawfulBEq α]

/-- What comes first among some elements of a list comes first in the list. -/
theorem idxOf_lt_of_filter {p : α → Bool} {xs : List α} {x y : α} (hx : p x = true)
    (hy : p y = true) (h : (xs.filter p).idxOf x < (xs.filter p).idxOf y) :
    xs.idxOf x < xs.idxOf y := by
  induction xs with
  | nil => exact h
  | cons first rest ih =>
      by_cases hfx : first = x
      · subst hfx
        have hfy : first ≠ y := by
          rintro rfl
          exact absurd h (Nat.lt_irrefl _)
        rw [List.idxOf_cons_self, List.idxOf_cons_ne _ hfy]
        exact Nat.succ_pos _
      · by_cases hfy : first = y
        · subst hfy
          rw [List.filter_cons_of_pos hy, List.idxOf_cons_self] at h
          exact absurd h (Nat.not_lt_zero _)
        · rw [List.idxOf_cons_ne _ hfx, List.idxOf_cons_ne _ hfy]
          refine Nat.succ_lt_succ (ih ?_)
          by_cases hfirst : p first = true
          · rw [List.filter_cons_of_pos hfirst, List.idxOf_cons_ne _ hfx,
              List.idxOf_cons_ne _ hfy] at h
            exact Nat.lt_of_succ_lt_succ h
          · rwa [List.filter_cons_of_neg hfirst] at h

/-- Without repetitions the elements of a list stand in the order of their first occurrences. -/
theorem pairwise_idxOf_eraseDups (xs : List α) :
    xs.eraseDups.Pairwise fun x y => xs.idxOf x < xs.idxOf y := by
  induction hn : xs.length using Nat.strongRecOn generalizing xs with
  | ind n ih =>
      cases xs with
      | nil => exact .nil
      | cons first rest =>
          have hlen : (rest.filter fun y => !y == first).length < n := by
            have hle := List.length_filter_le (fun y => !y == first) rest
            rw [List.length_cons] at hn
            omega
          have hother : ∀ y ∈ (rest.filter fun y => !y == first).eraseDups,
              (!y == first) = true := by
            intro y hy
            exact (List.mem_filter.mp (List.mem_eraseDups.mp hy)).2
          have hne : ∀ y, (!y == first) = true → first ≠ y := by
            rintro y hy rfl
            simp at hy
          rw [List.eraseDups_cons]
          refine List.pairwise_cons.mpr ⟨fun y hy => ?_, ?_⟩
          · rw [List.idxOf_cons_self, List.idxOf_cons_ne _ (hne y (hother y hy))]
            exact Nat.succ_pos _
          · refine (ih _ hlen _ rfl).imp_of_mem fun {y z} hy hz hlt => ?_
            rw [List.idxOf_cons_ne _ (hne y (hother y hy)),
              List.idxOf_cons_ne _ (hne z (hother z hz))]
            exact Nat.succ_lt_succ (idxOf_lt_of_filter (hother y hy) (hother z hz) hlt)

/-- Erasing the repetitions of a list leaves none. -/
theorem nodup_eraseDups (xs : List α) : xs.eraseDups.Nodup := by
  refine (pairwise_idxOf_eraseDups xs).imp fun {x y} hlt => ?_
  rintro rfl
  exact Nat.lt_irrefl _ hlt

end

/-! ## What a configuration stands for -/

/-- The handler of a suite, of the kind its mode asks for, without a look at the parameters. -/
def Handler.new (suite : SuiteDefinition) (params : Params) : Handler :=
  match suite.mode with
  | .passphrase => .passphrase (.new suite params) params
  | .keyFile => .keyFile (.new suite params)

@[simp] theorem Handler.suite_new (suite : SuiteDefinition) (params : Params) :
    (Handler.new suite params).suite = suite := by
  rw [Handler.new]
  cases suite.mode <;> rfl

@[simp] theorem Handler.suiteId_new (suite : SuiteDefinition) (params : Params) :
    (Handler.new suite params).suiteId = suite.id := by
  rw [Handler.suiteId, Handler.suite_new]

theorem Handler.engine_new (suite : SuiteDefinition) (params : Params) :
    (Handler.new suite params).engine = .new suite params := by
  rw [Handler.new]
  cases suite.mode <;> rfl

theorem Handler.new_of_passphrase {suite : SuiteDefinition} (h : suite.mode = .passphrase)
    (params : Params) : new suite params = .passphrase (.new suite params) params := by
  rw [new, h]

theorem Handler.new_of_keyFile {suite : SuiteDefinition} (h : suite.mode = .keyFile)
    (params : Params) : new suite params = .keyFile (.new suite params) := by
  rw [new, h]

/-- With valid parameters every suite has its handler. -/
theorem Handler.ofDefinition_of_validate {params : Params} (h : params.validate = .ok ())
    (suite : SuiteDefinition) : Handler.ofDefinition suite params = .ok (.new suite params) := by
  rw [Handler.ofDefinition, h, Handler.new]
  cases suite.mode <;> rfl

namespace Config

/-- The suite that a configuration describes under an id, if it can be read. -/
def suite? (c : Config) (id : String) : Option SuiteDefinition :=
  (c.suites.get? id).bind fun names => (SuiteDefinition.ofNames id names).toOption

/-- The handler of an id. -/
def handler? (c : Config) (id : String) : Option Handler :=
  (c.suite? id).map fun suite => .new suite c.params

/-- The handlers to try when decrypting: one for each id of the order that has a suite, at the
first place of the id. -/
def candidates (c : Config) : List Handler := c.order.eraseDups.filterMap c.handler?

/-- The parameters of a valid configuration are valid. -/
theorem params_validate {c : Config} (h : c.validate = .ok ()) : c.params.validate = .ok () :=
  (validate_iff.mp h).2.2

/-- What a registry of this configuration answers for an id. -/
def answer (c : Config) (id : String) : Except Error Handler :=
  match c.handler? id with
  | some handler => .ok handler
  | none => .error (.algorithmNotFound id)

theorem suite?_eq_some_iff {c : Config} {id : String} {suite : SuiteDefinition} :
    c.suite? id = some suite ↔
      ∃ names, c.suites.get? id = some names ∧ SuiteDefinition.ofNames id names = .ok suite := by
  rw [suite?, Option.bind_eq_some_iff]
  exact exists_congr fun names => and_congr_right fun _ => toOption_eq_some_iff

theorem suite?_id {c : Config} {id : String} {suite : SuiteDefinition}
    (h : c.suite? id = some suite) : suite.id = id := by
  obtain ⟨names, -, hread⟩ := suite?_eq_some_iff.mp h
  exact (SuiteDefinition.ofNames_eq_ok_iff.mp hread).sameId

theorem handler?_of_suite? {c : Config} {id : String} {suite : SuiteDefinition}
    (h : c.suite? id = some suite) : c.handler? id = some (.new suite c.params) := by
  rw [handler?, h]
  rfl

/-- A configuration answers with the handler of a suite that it describes. -/
theorem answer_eq_ok_iff {c : Config} {id : String} {handler : Handler} :
    c.answer id = .ok handler
      ↔ ∃ suite, c.suite? id = some suite ∧ .new suite c.params = handler := by
  rw [answer, handler?]
  cases c.suite? id with
  | none =>
      constructor
      · intro h
        cases h
      · rintro ⟨suite, h, -⟩
        cases h
  | some suite =>
      constructor
      · intro h
        exact ⟨suite, rfl, Except.ok.inj h⟩
      · rintro ⟨_, h, rfl⟩
        cases h
        rfl

theorem handler?_suiteId {c : Config} {id : String} {handler : Handler}
    (h : c.handler? id = some handler) : handler.suiteId = id := by
  obtain ⟨suite, hs, rfl⟩ := Option.map_eq_some_iff.mp h
  rw [Handler.suiteId_new]
  exact suite?_id hs

/-- The ids of the candidates are the distinct ids of the order that have a suite. -/
theorem candidates_suiteIds (c : Config) :
    c.candidates.map Handler.suiteId
      = c.order.eraseDups.filter fun id => (c.handler? id).isSome := by
  rw [candidates]
  induction c.order.eraseDups with
  | nil => rfl
  | cons id rest ih =>
      cases hh : c.handler? id with
      | none => rw [List.filterMap_cons_none hh, List.filter_cons_of_neg (by simp [hh]), ih]
      | some handler =>
          rw [List.filterMap_cons_some hh, List.filter_cons_of_pos (by simp [hh]), List.map_cons,
            handler?_suiteId hh, ih]

end Config

/-- No two candidates have the same id. -/
theorem Config.nodup_candidates (c : Config) : (c.candidates.map Handler.suiteId).Nodup := by
  rw [candidates_suiteIds]
  exact (nodup_eraseDups c.order).filter _

theorem Config.mem_candidates {c : Config} {id : String} {suite : SuiteDefinition}
    (hs : c.suite? id = some suite) (ho : id ∈ c.order) :
    Handler.new suite c.params ∈ c.candidates := by
  rw [candidates, List.mem_filterMap]
  exact ⟨id, List.mem_eraseDups.mpr ho, handler?_of_suite? hs⟩

/-! ## Registries that follow a configuration -/

namespace Registry

variable {σ : Type}

/-- A registry follows a configuration: it answers for the suites that can be read and has
made none but their own handlers. -/
structure Follows (r : Registry σ) (c : Config) : Prop where
  valid : c.validate = .ok ()
  active : r.active = c.active
  order : r.order = c.order
  params : r.params = c.params
  vacant : ∀ id, c.suite? id = none → r.slots.get? id = none
  occupied : ∀ id suite, c.suite? id = some suite → ∃ made,
    r.slots.get? id = some ⟨.factory suite Factory.standard, made⟩ ∧
      ∀ handler ∈ made, handler = .new suite c.params

/-- The factory of a suite makes its handler, and the slot keeps it. -/
theorem Follows.make {r : Registry σ} {c : Config} (h : r.Follows c) {id : String}
    {suite : SuiteDefinition} (hs : c.suite? id = some suite) (s : σ) :
    ∃ r', r.make id suite Factory.standard s = (.ok (.new suite c.params), r', s) ∧
      r'.Follows c := by
  have hfactory : (Factory.standard : Factory σ) suite r.params s
      = (.ok (.new suite c.params), s) := by
    rw [Factory.standard, h.params,
      Handler.ofDefinition_of_validate (Config.params_validate h.valid)]
  let made : Slot σ := ⟨.factory suite Factory.standard, some (.new suite c.params)⟩
  refine ⟨{ r with slots := r.slots.insert id made }, ?_, ?_⟩
  · rw [Registry.make, hfactory]
  · refine { h with vacant := ?_, occupied := ?_ }
    · intro other hnone
      have hne : other ≠ id := by
        rintro rfl
        rw [hs] at hnone
        cases hnone
      rw [IdMap.get?_insert, if_neg hne]
      exact h.vacant other hnone
    · intro other found hfound
      rw [IdMap.get?_insert]
      by_cases heq : other = id
      · subst heq
        rw [hs] at hfound
        cases hfound
        rw [if_pos rfl]
        refine ⟨_, rfl, ?_⟩
        intro handler hmade
        exact (Option.mem_some_iff.mp hmade).symm
      · rw [if_neg heq]
        exact h.occupied other found hfound

/-- **Looking up a handler.** The answer depends on the configuration alone. -/
theorem Follows.find {r : Registry σ} {c : Config} (h : r.Follows c) (id : String) (s : σ) :
    ∃ r', r.find id s = (c.answer id, r', s) ∧ r'.Follows c := by
  cases hs : c.suite? id with
  | none =>
      have hanswer : c.answer id = .error (.algorithmNotFound id) := by
        rw [Config.answer, Config.handler?, hs, Option.map_none]
      refine ⟨r, ?_, h⟩
      rw [Registry.find, h.vacant id hs, hanswer]
  | some suite =>
      have hanswer : c.answer id = .ok (.new suite c.params) := by
        rw [Config.answer, Config.handler?_of_suite? hs]
      obtain ⟨made, hslot, hmade⟩ := h.occupied id suite hs
      rw [Registry.find, hslot, hanswer]
      cases made with
      | none => exact h.make hs s
      | some handler =>
          have heq : handler = .new suite c.params := hmade handler rfl
          exact ⟨r, by rw [heq], h⟩

theorem Follows.activeHandler {r : Registry σ} {c : Config} (h : r.Follows c) (s : σ) :
    ∃ r', (Registry.activeHandler.run (r, s)).value = (c.answer c.active, r', s) ∧
      r'.Follows c := by
  obtain ⟨r', hfind, hfollows⟩ := h.find c.active s
  refine ⟨r', ?_, hfollows⟩
  have hblank : Text.isAllBlank r.active = false := by
    rw [h.active]
    exact (Config.validate_iff.mp h.valid).1
  rw [run_activeHandler, hblank, h.active]
  exact hfind

theorem Follows.resolveAll {r : Registry σ} {c : Config} (h : r.Follows c) (ids : List String)
    (s : σ) : ∃ r', ((Registry.resolveAll ids).run (r, s)).value
      = (ids.filterMap c.handler?, r', s) ∧ r'.Follows c := by
  induction ids generalizing r with
  | nil => exact ⟨r, rfl, h⟩
  | cons id rest ih =>
      obtain ⟨r₁, hfind, h₁⟩ := h.find id s
      obtain ⟨r₂, hrest, h₂⟩ := ih h₁
      refine ⟨r₂, ?_, h₂⟩
      have hresolve : ((resolve id).run (r, s)).value = (c.answer id, r₁, s) := hfind
      rw [Registry.resolveAll, StateT.run_bind, Logged.value_bind, hresolve]
      cases hh : c.handler? id with
      | none =>
          rw [List.filterMap_cons_none hh, Config.answer, hh]
          exact hrest
      | some handler =>
          rw [List.filterMap_cons_some hh, Config.answer, hh]
          show ((Registry.resolveAll rest >>= fun handlers => pure (handler :: handlers)).run
            (r₁, s)).value = _
          rw [StateT.run_bind, Logged.value_bind, hrest]
          rfl

/-- The candidates of a registry that follows a configuration are those of the configuration. -/
theorem Follows.candidates {r : Registry σ} {c : Config} (h : r.Follows c) (s : σ) :
    ∃ r', (Registry.candidates.run (r, s)).value = (c.candidates, r', s) ∧ r'.Follows c := by
  obtain ⟨r', hall, hfollows⟩ := h.resolveAll c.order.eraseDups s
  refine ⟨r', ?_, hfollows⟩
  show ((Registry.resolveAll r.order.eraseDups).run (r, s)).value = _
  rw [h.order]
  exact hall

/-! ## Building -/

/-- The suite that a list of described suites gives an id. -/
def suiteIn? (described : List (String × SuiteNames)) (id : String) : Option SuiteDefinition :=
  ((described.find? fun e => e.1 = id).map (·.2)).bind fun names =>
    (SuiteDefinition.ofNames id names).toOption

/-- The slot in which the standard factory of a suite waits. -/
def waiting (suite : SuiteDefinition) : Slot σ := ⟨.factory suite Factory.standard, none⟩

/-- The slots of described suites, over those that are there. -/
def overlaid (described : List (String × SuiteNames)) (slots : IdMap (Slot σ)) (id : String) :
    Option (Slot σ) :=
  match suiteIn? described id with
  | some suite => some (waiting suite)
  | none => slots.get? id

/-- A registration is refused for its id before anything is changed, or it fills the slot of the
id. -/
theorem value_enter (b : Builder σ) (id : String) (entry : Entry σ) :
    (Builder.enter id entry b).value =
      if Text.isAllBlank id then (.error Builder.emptyId, b)
      else if entry.suiteId ≠ id then (.error (Builder.foreignEntry entry.suiteId id), b)
      else (.ok (), { b with slots := b.slots.insert id ⟨entry, none⟩ }) := by
  rw [Builder.enter]
  by_cases hblank : Text.isAllBlank id = true
  · rw [if_pos hblank, if_pos hblank]
    rfl
  · rw [if_neg hblank, if_neg hblank]
    by_cases hid : entry.suiteId ≠ id
    · rw [if_pos hid, if_pos hid]
      rfl
    · rw [if_neg hid, if_neg hid]
      let b' : Builder σ := { b with slots := b.slots.insert id ⟨entry, none⟩ }
      show ((if b.slots.contains id then liftM (Logged.report (Builder.replaced id))
        else pure () : Registering σ Unit) b').value = (.ok (), b')
      split <;> rfl

/-- The outcome of a registration. -/
theorem value_register_eq (b : Builder σ) (id : String) (entry : Entry σ) :
    (b.register id entry).value =
      if Text.isAllBlank id then .error Builder.emptyId
      else if entry.suiteId ≠ id then .error (Builder.foreignEntry entry.suiteId id)
      else .ok { b with slots := b.slots.insert id ⟨entry, none⟩ } := by
  rw [Builder.value_register, value_enter]
  split
  · rfl
  · split <;> rfl

/-- A suite that can be read is registered. -/
theorem value_register (b : Builder σ) {id : String} {names : SuiteNames} {suite : SuiteDefinition}
    (h : SuiteDefinition.ofNames id names = .ok suite) :
    (b.register id (.factory suite Factory.standard)).value
      = .ok { b with slots := b.slots.insert id (waiting suite) } := by
  have hdescribe := SuiteDefinition.ofNames_eq_ok_iff.mp h
  have hid : ¬suite.id ≠ id := fun hne => hne hdescribe.sameId
  have hblank : ¬Text.isAllBlank id = true := by
    rw [hdescribe.notBlank]
    exact Bool.false_ne_true
  rw [value_register_eq, if_neg hblank, Entry.suiteId, if_neg hid, waiting]

theorem value_registerSuites_ok (active : String) (rest : List (String × SuiteNames))
    (b : Builder σ) {id : String} {names : SuiteNames} {suite : SuiteDefinition}
    (h : SuiteDefinition.ofNames id names = .ok suite) :
    (registerSuites active ((id, names) :: rest) b).value
      = (registerSuites active rest
          { b with slots := b.slots.insert id (waiting suite) }).value := by
  rw [registerSuites, h]
  show (b.register id (.factory suite Factory.standard) >>= _).value = _
  rw [Logged.value_bind, value_register b h]

/-- A suite that cannot be read is left out, unless it is the active one. -/
theorem value_registerSuites_error (active : String) (rest : List (String × SuiteNames))
    (b : Builder σ) {id : String} {names : SuiteNames} {e : Error}
    (h : SuiteDefinition.ofNames id names = .error e) :
    (registerSuites active ((id, names) :: rest) b).value
      = if id = active then .error e else (registerSuites active rest b).value := by
  rw [registerSuites, h]
  by_cases hid : id = active
  · simp only [if_pos hid, Logged.value_bind]
    rfl
  · simp only [if_neg hid, Logged.value_bind]

/-- If the active suite can be read, registering described suites puts the factories of all
that can be read into the slots and does nothing else. -/
theorem registerSuites_of_readable {active : String} {described : List (String × SuiteNames)}
    (hasc : described.Pairwise fun x y => x.1 < y.1)
    (hactive : ∀ names, (active, names) ∈ described →
      (SuiteDefinition.ofNames active names).isOk) (b : Builder σ) :
    ∃ b', (registerSuites active described b).value = .ok b' ∧ b'.active = b.active ∧
      b'.order = b.order ∧ b'.params = b.params ∧
        ∀ id, b'.slots.get? id = overlaid described b.slots id := by
  induction described generalizing b with
  | nil => exact ⟨b, rfl, rfl, rfl, rfl, fun id => rfl⟩
  | cons e rest ih =>
      obtain ⟨id, names⟩ := e
      obtain ⟨hfirst, hrest⟩ := List.pairwise_cons.mp hasc
      have hactive' : ∀ names, (active, names) ∈ rest →
          (SuiteDefinition.ofNames active names).isOk :=
        fun names hm => hactive names (List.mem_cons_of_mem _ hm)
      have hfresh : suiteIn? rest id = none := by
        have hfind : (rest.find? fun e => e.1 = id) = none := by
          rw [List.find?_eq_none]
          intro e he hid
          have hlt : id < e.1 := hfirst e he
          rw [of_decide_eq_true hid] at hlt
          exact String.lt_irrefl _ hlt
        rw [suiteIn?, hfind]
        rfl
      have hother : ∀ other, other ≠ id →
          suiteIn? ((id, names) :: rest) other = suiteIn? rest other := by
        intro other hne
        rw [suiteIn?, List.find?_cons_of_neg (by simp [Ne.symm hne])]
        rfl
      have hself : suiteIn? ((id, names) :: rest) id
          = (SuiteDefinition.ofNames id names).toOption := by
        rw [suiteIn?, List.find?_cons_of_pos (by simp)]
        rfl
      cases hn : SuiteDefinition.ofNames id names with
      | ok suite =>
          let next : Builder σ := { b with slots := b.slots.insert id (waiting suite) }
          obtain ⟨b', hvalue, ha, ho, hp, hslots⟩ := ih hrest hactive' next
          refine ⟨b', ?_, ha, ho, hp, ?_⟩
          · rw [value_registerSuites_ok active rest b hn]
            exact hvalue
          · intro other
            rw [hslots other]
            by_cases heq : other = id
            · subst heq
              rw [overlaid, hfresh, overlaid, hself, hn]
              exact (IdMap.get?_insert ..).trans (if_pos rfl)
            · have hsame : next.slots.get? other = b.slots.get? other :=
                (IdMap.get?_insert ..).trans (if_neg heq)
              rw [overlaid, overlaid, hother other heq, hsame]
      | error e =>
          have hne : id ≠ active := by
            rintro rfl
            have hok := hactive names List.mem_cons_self
            rw [hn] at hok
            cases hok
          obtain ⟨b', hvalue, ha, ho, hp, hslots⟩ := ih hrest hactive' b
          refine ⟨b', ?_, ha, ho, hp, ?_⟩
          · rw [value_registerSuites_error active rest b hn, if_neg hne]
            exact hvalue
          · intro other
            rw [hslots other]
            by_cases heq : other = id
            · subst heq
              rw [overlaid, hfresh, overlaid, hself, hn]
              rfl
            · rw [overlaid, overlaid, hother other heq]

/-- An active suite that cannot be read is not registered over. -/
theorem readable_of_registerSuites {active : String} {described : List (String × SuiteNames)}
    {b b' : Builder σ} (h : (registerSuites active described b).value = .ok b') :
    ∀ names, (active, names) ∈ described → (SuiteDefinition.ofNames active names).isOk := by
  induction described generalizing b with
  | nil =>
      intro names hm
      cases hm
  | cons e rest ih =>
      obtain ⟨id, names⟩ := e
      intro found hm
      cases hn : SuiteDefinition.ofNames id names with
      | ok suite =>
          rw [value_registerSuites_ok active rest b hn] at h
          rcases List.mem_cons.mp hm with heq | hm
          · cases heq
            rw [hn]
            rfl
          · exact ih h found hm
      | error e =>
          rw [value_registerSuites_error active rest b hn] at h
          by_cases hid : id = active
          · rw [if_pos hid] at h
            cases h
          · rw [if_neg hid] at h
            rcases List.mem_cons.mp hm with heq | hm
            · cases heq
              exact absurd rfl hid
            · exact ih h found hm

/-- What a configuration says about an id is what its table says. -/
theorem suiteIn?_entries (c : Config) (id : String) : suiteIn? c.suites.entries id = c.suite? id :=
  rfl

/-- The builder's registry, before its active suite is looked up, follows the configuration. -/
theorem follows_of_overlaid {c : Config} (hvalid : c.validate = .ok ()) {b : Builder σ}
    (ha : b.active = c.active) (ho : b.order = c.order) (hp : b.params = c.params)
    (hslots : ∀ id, b.slots.get? id = overlaid c.suites.entries IdMap.empty id) :
    Follows (⟨b.active, b.order, b.params, b.slots⟩ : Registry σ) c := by
  refine ⟨hvalid, ha, ho, hp, ?_, ?_⟩
  · intro id hnone
    show b.slots.get? id = none
    rw [hslots, overlaid, suiteIn?_entries, hnone]
    rfl
  · intro id suite hsome
    refine ⟨none, ?_, fun handler hm => by cases hm⟩
    show b.slots.get? id = _
    rw [hslots, overlaid, suiteIn?_entries, hsome]
    rfl

/-- Building asks for the active handler and keeps the registry with it. -/
theorem value_build {c : Config} {b : Builder σ} (hp : b.params = c.params)
    (h : Follows (⟨b.active, b.order, b.params, b.slots⟩ : Registry σ) c) (s : σ) :
    ∃ r, r.Follows c ∧ (b.build s).value = ((c.answer c.active).map fun _ => r, s) := by
  obtain ⟨r, hactive, hfollows⟩ := h.activeHandler s
  refine ⟨r, hfollows, ?_⟩
  rw [Builder.build, hp, Config.params_validate h.valid, ← hp]
  simp only [Logged.value_bind, hactive]
  cases c.answer c.active <;> rfl

/-- A valid configuration whose active suite, if described, can be read makes a registry if the
active suite is described, and the registry follows it. -/
theorem value_ofConfig {c : Config} (hvalid : c.validate = .ok ())
    (hreadable : ∀ names, (c.active, names) ∈ c.suites.entries →
      (SuiteDefinition.ofNames c.active names).isOk) (s : σ) :
    ∃ r, r.Follows c ∧ (ofConfig c s).value = ((c.answer c.active).map fun _ => r, s) := by
  obtain ⟨b, hvalue, ha, ho, hp, hslots⟩ :=
    registerSuites_of_readable c.suites.ascending hreadable (.new c : Builder σ)
  obtain ⟨r, hfollows, hbuild⟩ := value_build hp (follows_of_overlaid hvalid ha ho hp hslots) s
  refine ⟨r, hfollows, ?_⟩
  rw [ofConfig, hvalid]
  simp only [Logged.value_bind, hvalue, hbuild]

/-- The registry of a configuration follows it. -/
theorem follows_of_ofConfig {c : Config} {s s' : σ} {r : Registry σ}
    (h : (ofConfig c s).value = (.ok r, s')) : r.Follows c := by
  cases hv : c.validate with
  | error e =>
      rw [ofConfig, hv] at h
      cases h
  | ok =>
      cases hr : (registerSuites c.active c.suites.entries (.new c : Builder σ)).value with
      | error e =>
          rw [ofConfig, hv] at h
          simp only [Logged.value_bind, hr] at h
          cases h
      | ok b =>
          obtain ⟨r', hfollows, hvalue⟩ := value_ofConfig hv (readable_of_registerSuites hr) s
          rw [hvalue] at h
          cases ha : c.answer c.active with
          | error e =>
              rw [ha] at h
              cases h
          | ok handler =>
              rw [ha] at h
              cases h
              exact hfollows

/-- A valid configuration with a readable active suite makes a registry. -/
theorem exists_ofConfig {c : Config} {suite : SuiteDefinition} (hvalid : c.validate = .ok ())
    (hactive : c.suite? c.active = some suite) (s : σ) :
    ∃ r, (ofConfig c s).value = (.ok r, s) := by
  have hreadable : ∀ names, (c.active, names) ∈ c.suites.entries →
      (SuiteDefinition.ofNames c.active names).isOk := by
    intro names hmem
    have hget : c.suites.get? c.active = some names := (IdMap.get?_eq_some_iff _ _ _).mpr hmem
    rw [Config.suite?, hget] at hactive
    cases hn : SuiteDefinition.ofNames c.active names with
    | ok found => rfl
    | error e =>
        rw [Option.bind_some, hn] at hactive
        cases hactive
  obtain ⟨r, -, hvalue⟩ := value_ofConfig hvalid hreadable s
  refine ⟨r, ?_⟩
  rw [hvalue, Config.answer, Config.handler?_of_suite? hactive]
  rfl

/-- The registries that a configuration can lead to: the one built from it, and what looking
up handlers makes of it. -/
inductive Built (c : Config) : Registry σ → Prop
  | ofConfig {s s' : σ} {r : Registry σ} (h : (ofConfig c s).value = (.ok r, s')) : Built c r
  | find {r : Registry σ} (id : String) (s : σ) (h : Built c r) : Built c (r.find id s).2.1

/-- **A registry follows its configuration at any time of its life.** -/
theorem Built.follows {c : Config} {r : Registry σ} (h : Built c r) : r.Follows c := by
  induction h with
  | ofConfig h => exact follows_of_ofConfig h
  | find id s _ ih =>
      obtain ⟨r', hfind, hfollows⟩ := ih.find id s
      rw [hfind]
      exact hfollows

end Registry

/-- A suite for samples: the fastest algorithm for every role. -/
def sampleSuite (id : String) (mode : KeyMode) : SuiteDefinition :=
  ⟨id, .x25519, .kyber768, .chacha20Poly1305, .hkdfSha256, .pbkdf2Sha256, mode⟩

end AgileSeal
