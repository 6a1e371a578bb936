import AgileSeal.Config.Source
import AgileSeal.Proofs.Operations
import AgileSeal.Proofs.Text.Natural

set_option autoImplicit false

/-! # Configurations from the environment

Five variables override the parameters of a configuration, each of them one field. A variable gives
a number if its text is a numeral between blanks and the number has the width of the field
(`Environment.Gives`). The field then is this number, and in all other cases it stays what it was
(`Params.Overridden`), so a variable that gives no number might as well not be set
(`Params.value_withOverrides_unset`), and to override parameters again changes nothing.

A configuration comes from a file that the environment names. It is checked as it stands in the file
and again after its parameters have been overridden, where only the parameters can be found wrong
(`Config.validate_withParams_iff`). There is a configuration if both checks pass, and whatever else
happens is an error of the configuration (`Config.ofEnvironment_exact`).
-/

namespace AgileSeal

/-! ## Variables -/

namespace Environment

/-- A variable gives a number: its text is a numeral between blanks, and the number stays below the
bound. -/
def Gives (env : Environment) (name : String) (bound n : Nat) : Prop :=
  ∃ text, env.get? name = some text ∧
    (∃ before numeral after, Text.Blanks before ∧ Text.Blanks after ∧
      text.toList = before ++ (numeral ++ after) ∧ Text.Numeral numeral n) ∧ n < bound

/-- What a field becomes: the number that its variable gives, or else what it was. -/
def Overrides (env : Environment) (name : String) (bound old new : Nat) : Prop :=
  env.Gives name bound new ∨ (∀ n, ¬env.Gives name bound n) ∧ new = old

/-- To override a field again changes nothing. -/
theorem Overrides.again {env : Environment} {name : String} {bound old new : Nat}
    (h : env.Overrides name bound old new) : env.Overrides name bound new new := by
  rcases h with hgives | ⟨hnone, -⟩
  · exact .inl hgives
  · exact .inr ⟨hnone, rfl⟩

theorem Overrides.congr {env env' : Environment} {name : String} {bound old new : Nat}
    (hsame : ∀ n, env.Gives name bound n ↔ env'.Gives name bound n)
    (h : env.Overrides name bound old new) : env'.Overrides name bound old new := by
  rcases h with hgives | ⟨hnone, hold⟩
  · exact .inl ((hsame new).mp hgives)
  · exact .inr ⟨fun n hgives => hnone n ((hsame n).mpr hgives), hold⟩

theorem get?_unset (env : Environment) (name other : String) :
    (env.unset name).get? other = if other = name then none else env.get? other := by
  rw [get?, unset, List.find?_filter]
  by_cases h : other = name
  · rw [if_pos h, List.find?_eq_none.mpr]
    · rfl
    · intro v _ hv
      simp only [decide_eq_true_eq] at hv
      exact hv.1 (hv.2.trans h)
  · rw [if_neg h, get?]
    congr 2
    funext v
    by_cases hv : v.1 = other
    · simp [hv, h]
    · simp [hv]

/-- Without one of its variables an environment gives the numbers of the others. -/
theorem gives_unset_iff {env : Environment} {name other : String} {bound n : Nat} :
    (env.unset name).Gives other bound n ↔ other ≠ name ∧ env.Gives other bound n := by
  unfold Gives
  rw [get?_unset]
  by_cases h : other = name
  · rw [if_pos h]
    refine iff_of_false ?_ fun hne => hne.1 h
    rintro ⟨text, htext, -⟩
    cases htext
  · rw [if_neg h, and_iff_right h]

end Environment

/-! ## Parameters -/

namespace Params

/-- The variables that override parameters, each with the bound of its field. -/
def fieldVariables : List (String × Nat) :=
  [("AGILITY_ARGON2_MEMORY_KIB", UInt32.size), ("AGILITY_ARGON2_ITERATIONS", UInt32.size),
    ("AGILITY_ARGON2_PARALLELISM", UInt32.size), ("AGILITY_PBKDF2_ITERATIONS", UInt32.size),
    ("AGILITY_SALT_LENGTH", UInt64.size)]

/-- **Overridden parameters**: each field is the number that its own variable gives, or else what it
was. -/
structure Overridden (env : Environment) (p q : Params) : Prop where
  argon2Memory : env.Overrides "AGILITY_ARGON2_MEMORY_KIB" UInt32.size
    p.argon2Memory.toNat q.argon2Memory.toNat
  argon2Iterations : env.Overrides "AGILITY_ARGON2_ITERATIONS" UInt32.size
    p.argon2Iterations.toNat q.argon2Iterations.toNat
  argon2Parallelism : env.Overrides "AGILITY_ARGON2_PARALLELISM" UInt32.size
    p.argon2Parallelism.toNat q.argon2Parallelism.toNat
  pbkdf2Iterations : env.Overrides "AGILITY_PBKDF2_ITERATIONS" UInt32.size
    p.pbkdf2Iterations.toNat q.pbkdf2Iterations.toNat
  saltLength : env.Overrides "AGILITY_SALT_LENGTH" UInt64.size
    p.saltLength.toNat q.saltLength.toNat

/-- A number is found if the variable gives it. -/
theorem value_override_eq_some_iff {env : Environment} {bound n : Nat} {name : String} :
    (override env bound name).value = some n ↔ env.Gives name bound n := by
  rw [override, Environment.Gives]
  cases env.get? name with
  | none =>
      refine iff_of_false (fun h => by cases h) ?_
      rintro ⟨text, htext, -⟩
      cases htext
  | some text =>
      have hread : Text.naturalBelow? bound (Text.trimChars text.toList) = some n ↔ _ :=
        Text.naturalBelow?_trimChars_eq_some_iff
      simp only [Option.some_inj, exists_eq_left']
      rw [← hread]
      cases Text.naturalBelow? bound (Text.trimChars text.toList) <;> rfl

/-- A field of any width is what its variable makes of it. -/
theorem getD_override_eq_iff {α : Type} {toNat : α → Nat} {ofNat : Nat → α} {bound : Nat}
    (hof : ∀ a, ofNat (toNat a) = a) (hto : ∀ n < bound, toNat (ofNat n) = n)
    (env : Environment) (name : String) (old new : α) :
    ((override env bound name).value.map ofNat).getD old = new ↔
      env.Overrides name bound (toNat old) (toNat new) := by
  cases hvalue : (override env bound name).value with
  | none =>
      have hnone (n : Nat) : ¬env.Gives name bound n := by
        rw [← value_override_eq_some_iff, hvalue]
        exact Option.some_ne_none n ∘ Eq.symm
      constructor
      · rintro rfl
        exact .inr ⟨hnone, rfl⟩
      · rintro (hgives | ⟨-, hsame⟩)
        · exact absurd hgives (hnone _)
        · rw [← hof new, hsame, hof old]
          rfl
  | some n =>
      have hgives := value_override_eq_some_iff.mp hvalue
      have hlt : n < bound := hgives.elim fun _ h => h.2.2
      constructor
      · rintro rfl
        refine .inl ?_
        show env.Gives name bound (toNat (ofNat n))
        rwa [hto n hlt]
      · rintro (hnew | ⟨hnone, -⟩)
        · rw [← value_override_eq_some_iff, hvalue] at hnew
          cases hnew
          exact hof new
        · exact absurd hgives (hnone n)

theorem value_override32_eq_iff {env : Environment} {name : String} {old new : UInt32} :
    (override32 env name old).value = new ↔
      env.Overrides name UInt32.size old.toNat new.toNat :=
  getD_override_eq_iff (fun _ => UInt32.ofNat_toNat) (fun _ hn => UInt32.toNat_ofNat_of_lt' hn)
    env name old new

theorem value_override64_eq_iff {env : Environment} {name : String} {old new : UInt64} :
    (override64 env name old).value = new ↔
      env.Overrides name UInt64.size old.toNat new.toNat :=
  getD_override_eq_iff (fun _ => UInt64.ofNat_toNat) (fun _ hn => UInt64.toNat_ofNat_of_lt' hn)
    env name old new

/-- **Each field is overridden by its own variable** and by nothing else. -/
theorem value_withOverrides_eq_iff {env : Environment} {p q : Params} :
    (p.withOverrides env).value = q ↔ Overridden env p q := by
  constructor
  · rintro rfl
    exact ⟨value_override32_eq_iff.mp rfl, value_override32_eq_iff.mp rfl,
      value_override32_eq_iff.mp rfl, value_override32_eq_iff.mp rfl,
      value_override64_eq_iff.mp rfl⟩
  · intro h
    have hvalue : (p.withOverrides env).value
        = ⟨(override32 env "AGILITY_ARGON2_MEMORY_KIB" p.argon2Memory).value,
          (override32 env "AGILITY_ARGON2_ITERATIONS" p.argon2Iterations).value,
          (override32 env "AGILITY_ARGON2_PARALLELISM" p.argon2Parallelism).value,
          (override32 env "AGILITY_PBKDF2_ITERATIONS" p.pbkdf2Iterations).value,
          (override64 env "AGILITY_SALT_LENGTH" p.saltLength).value⟩ := rfl
    rw [hvalue, value_override32_eq_iff.mpr h.argon2Memory,
      value_override32_eq_iff.mpr h.argon2Iterations,
      value_override32_eq_iff.mpr h.argon2Parallelism,
      value_override32_eq_iff.mpr h.pbkdf2Iterations, value_override64_eq_iff.mpr h.saltLength]

/-- To override parameters again changes nothing. -/
theorem value_withOverrides_again (env : Environment) (p : Params) :
    ((p.withOverrides env).value.withOverrides env).value = (p.withOverrides env).value := by
  have h := value_withOverrides_eq_iff.mp (rfl : (p.withOverrides env).value = _)
  exact value_withOverrides_eq_iff.mpr ⟨h.argon2Memory.again, h.argon2Iterations.again,
    h.argon2Parallelism.again, h.pbkdf2Iterations.again, h.saltLength.again⟩

/-- Environments in which the variables give the same numbers override alike. -/
theorem value_withOverrides_congr {env env' : Environment}
    (hsame : ∀ v ∈ fieldVariables, ∀ n, env.Gives v.1 v.2 n ↔ env'.Gives v.1 v.2 n) (p : Params) :
    (p.withOverrides env).value = (p.withOverrides env').value := by
  have h := value_withOverrides_eq_iff.mp (rfl : (p.withOverrides env).value = _)
  refine (value_withOverrides_eq_iff.mpr ?_).symm
  exact ⟨h.argon2Memory.congr (hsame (_, _) (by decide)),
    h.argon2Iterations.congr (hsame (_, _) (by decide)),
    h.argon2Parallelism.congr (hsame (_, _) (by decide)),
    h.pbkdf2Iterations.congr (hsame (_, _) (by decide)),
    h.saltLength.congr (hsame (_, _) (by decide))⟩

/-- A variable that gives no number might as well not be set. -/
theorem value_withOverrides_unset {env : Environment} {v : String × Nat} (hv : v ∈ fieldVariables)
    (hnone : ∀ n, ¬env.Gives v.1 v.2 n) (p : Params) :
    (p.withOverrides env).value = (p.withOverrides (env.unset v.1)).value := by
  have hnames : ∀ v ∈ fieldVariables, ∀ v' ∈ fieldVariables, v'.1 = v.1 → v' = v := by decide
  refine value_withOverrides_congr (fun v' hv' n => ?_) p
  rw [Environment.gives_unset_iff]
  -- no other field has the same variable, so the bound that it fails to meet is the one in question
  refine (and_iff_right_of_imp fun hgives hname => ?_).symm
  rw [hnames v hv v' hv' hname] at hgives
  exact hnone n hgives

end Params

/-! ## Configurations -/

namespace Config

/-- A complaint about a configuration. -/
theorem validate_eq_error {c : Config} {e : Error} (h : c.validate = .error e) :
    ∃ detail, e = .configuration detail := by
  rw [validate] at h
  cases hproblem : c.problem? with
  | none =>
      rw [hproblem] at h
      cases h
  | some problem =>
      rw [hproblem] at h
      cases h
      exact ⟨_, rfl⟩

/-- **What a valid configuration is**: it names an active suite, no id of its order is blank, and its
parameters are valid. -/
theorem validate_iff {c : Config} : c.validate = .ok () ↔
    Text.isAllBlank c.active = false ∧ c.order.any Text.isAllBlank = false ∧
      c.params.validate = .ok () := by
  rw [validate_eq_ok_iff, problem?, ite_some_eq_none_iff, ite_some_eq_none_iff,
    Option.map_eq_none_iff, Bool.not_eq_true, Bool.not_eq_true, Params.validate_eq_ok_iff]

/-- With other parameters there is nothing else to be found wrong. -/
theorem validate_withParams_iff {c : Config} (h : c.validate = .ok ()) (params : Params) :
    ({ c with params } : Config).validate = .ok () ↔ params.validate = .ok () := by
  obtain ⟨hactive, horder, -⟩ := validate_iff.mp h
  rw [validate_iff, and_iff_right hactive, and_iff_right horder]

/-- A document that is accepted has been read and checked. -/
theorem ofJson_eq_ok_iff {document : String} {c : Config} :
    ofJson document = .ok c ↔ parse document = .ok c ∧ c.validate = .ok () := by
  rw [ofJson, bind_eq_ok_iff]
  constructor
  · rintro ⟨c', hparse, hcheck⟩
    obtain ⟨hvalid, hsame⟩ := check_bind_eq_ok_iff.mp hcheck
    cases hsame
    exact ⟨hparse, hvalid⟩
  · rintro ⟨hparse, hvalid⟩
    exact ⟨c, hparse, check_bind_eq_ok_iff.mpr ⟨hvalid, rfl⟩⟩

theorem ofJson_fails_only (document : String) :
    FailsOnly (ofJson document) fun e => ∃ detail, e = .configuration detail := by
  refine .bind (.mapError (fun problem => ⟨_, rfl⟩) _) fun c => ?_
  exact .bind (fun _ => validate_eq_error) fun _ => .ok c

theorem ofFile_eq_ok_iff {files : FileSystem} {path : String} {c : Config} :
    ofFile files path = .ok c ↔
      ∃ document, files.readText path = .ok document ∧ ofJson document = .ok c := by
  rw [ofFile]
  cases files.readText path with
  | error e =>
      refine iff_of_false (fun h => by cases h) ?_
      rintro ⟨document, h, -⟩
      cases h
  | ok document =>
      constructor
      · intro h
        exact ⟨document, rfl, h⟩
      · rintro ⟨_, ⟨⟩, h⟩
        exact h

theorem ofFile_fails_only (files : FileSystem) (path : String) :
    FailsOnly (ofFile files path) fun e => ∃ detail, e = .configuration detail := by
  rw [ofFile]
  cases files.readText path with
  | error e => exact .error ⟨_, rfl⟩
  | ok document => exact ofJson_fails_only document

/-- A valid configuration is overridden if its new parameters are valid. -/
theorem value_withOverrides_eq_ok_iff {f c : Config} (hvalid : f.validate = .ok ())
    {env : Environment} : (f.withOverrides env).value = .ok c ↔
      ∃ params, Params.Overridden env f.params params ∧ params.validate = .ok () ∧
        c = { f with params } := by
  have hvalue : (f.withOverrides env).value
      = ({ f with params := (f.params.withOverrides env).value } : Config).validate.map
        fun () => { f with params := (f.params.withOverrides env).value } := rfl
  rw [hvalue, map_eq_ok_iff]
  constructor
  · rintro ⟨_, hchecked, rfl⟩
    exact ⟨_, Params.value_withOverrides_eq_iff.mp rfl,
      (validate_withParams_iff hvalid _).mp hchecked, rfl⟩
  · rintro ⟨params, hoverridden, hparams, rfl⟩
    rw [Params.value_withOverrides_eq_iff.mpr hoverridden]
    exact ⟨(), (validate_withParams_iff hvalid params).mpr hparams, rfl⟩

/-- What a configuration from the environment is. -/
theorem value_ofEnvironment_eq_ok_iff {files : FileSystem} {env : Environment} {c : Config} :
    (ofEnvironment files env).value = .ok c ↔
      ∃ path document f, env.get? "AGILITY_CONFIG" = some path ∧
        files.readText path = .ok document ∧ ofJson document = .ok f ∧
        ∃ params, Params.Overridden env f.params params ∧ params.validate = .ok () ∧
          c = { f with params } := by
  rw [ofEnvironment, pathVariable]
  cases env.get? "AGILITY_CONFIG" with
  | none =>
      refine iff_of_false (fun h => by cases h) ?_
      rintro ⟨path, document, f, h, -⟩
      cases h
  | some path =>
      cases hfile : ofFile files path with
      | error e =>
          refine iff_of_false (fun h => by simp only [hfile] at h; cases h) ?_
          rintro ⟨_, document, f, ⟨⟩, hread, haccepted, -⟩
          cases hfile.symm.trans (ofFile_eq_ok_iff.mpr ⟨document, hread, haccepted⟩)
      | ok f =>
          simp only [hfile]
          obtain ⟨document, hread, haccepted⟩ := ofFile_eq_ok_iff.mp hfile
          -- what stands in the file has been checked, so only its parameters need another check
          rw [value_withOverrides_eq_ok_iff (ofJson_eq_ok_iff.mp haccepted).2]
          constructor
          · intro h
            exact ⟨path, document, f, rfl, hread, haccepted, h⟩
          · rintro ⟨_, document', f', ⟨⟩, hread', haccepted', h⟩
            cases hfile.symm.trans (ofFile_eq_ok_iff.mpr ⟨document', hread', haccepted'⟩)
            exact h

theorem value_ofEnvironment_fails_only (files : FileSystem) (env : Environment) :
    FailsOnly (ofEnvironment files env).value fun e => ∃ detail, e = .configuration detail := by
  rw [ofEnvironment]
  cases env.get? pathVariable with
  | none => exact .error ⟨_, rfl⟩
  | some path =>
      have hfails := ofFile_fails_only files path
      cases hfile : ofFile files path with
      | error e =>
          simp only [hfile]
          exact .error (hfails e hfile)
      | ok f =>
          simp only [hfile]
          exact .map (fun _ => validate_eq_error) _

/-- **A configuration from the environment.** The environment gives a configuration if it names a
file that can be read, the text of this file is accepted as a configuration, and the parameters are
still valid when each of them has been replaced by the number that its variable gives, if it gives
one; everything else is as in the file. All failures are errors of the configuration. A variable
that gives no number has the effect of one that is not set, whatever stands in it, and parameters
that have been overridden are not changed by overriding them again. -/
theorem ofEnvironment_exact (files : FileSystem) (env : Environment) :
    (∀ c, (ofEnvironment files env).value = .ok c ↔
      ∃ path document f, env.get? "AGILITY_CONFIG" = some path ∧
        files.readText path = .ok document ∧ ofJson document = .ok f ∧
        ∃ params, Params.Overridden env f.params params ∧ params.validate = .ok () ∧
          c = { f with params }) ∧
    FailsOnly (ofEnvironment files env).value (fun e => ∃ detail, e = .configuration detail) ∧
    (∀ (p : Params), ∀ v ∈ Params.fieldVariables, (∃ n, env.Gives v.1 v.2 n) ∨
      (p.withOverrides env).value = (p.withOverrides (env.unset v.1)).value) ∧
    ∀ p : Params,
      ((p.withOverrides env).value.withOverrides env).value = (p.withOverrides env).value := by
  refine ⟨fun c => value_ofEnvironment_eq_ok_iff, value_ofEnvironment_fails_only files env,
    fun p v hv => ?_, Params.value_withOverrides_again env⟩
  by_cases hgives : ∃ n, env.Gives v.1 v.2 n
  · exact .inl hgives
  · exact .inr (Params.value_withOverrides_unset hv (not_exists.mp hgives) p)

end Config

end AgileSeal
