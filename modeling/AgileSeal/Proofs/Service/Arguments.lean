import AgileSeal.Proofs.Handler.Opening
import AgileSeal.Proofs.Service.RoundTrip

set_option autoImplicit false

/-! # Failures that blame the arguments

An encryption fails for the keys, for a primitive or for the size of its result. It blames its
arguments for an empty text and for nothing else (`Service.blameless_encrypt`): the id of a suite
could not be written if it were too long, but then the suite would not have been read from the
configuration (`SuiteDefinition.exists_encode_of_ofNames`).
-/

namespace AgileSeal

/-! ## Computations -/

section

variable {ε α β τ : Type}

/-- A result that does not blame the arguments. -/
def Blameless (r : Except Error α) : Prop := ∀ detail, r ≠ .error (.invalidArgument detail)

theorem blameless_iff {r : Except Error α} :
    Blameless r ↔ FailsOnly r fun e => ∀ detail, e ≠ .invalidArgument detail := by
  constructor
  · rintro h e rfl detail rfl
    exact h detail rfl
  · intro h detail heq
    exact h _ heq detail rfl

theorem Blameless.ok (a : α) : Blameless (.ok a : Except Error α) := blameless_iff.mpr (.ok a)

theorem Blameless.error {e : Error} (h : ∀ detail, e ≠ .invalidArgument detail) :
    Blameless (.error e : Except Error α) := blameless_iff.mpr (.error h)

theorem Blameless.mapError {f : ε → Error} (h : ∀ e detail, f e ≠ .invalidArgument detail)
    (r : Except ε α) : Blameless (r.mapError f) := blameless_iff.mpr (.mapError h r)

theorem Blameless.bind {r : Except Error α} {f : α → Except Error β} (hr : Blameless r)
    (hf : ∀ a, Blameless (f a)) : Blameless (r >>= f) :=
  blameless_iff.mpr ((blameless_iff.mp hr).bind fun a => blameless_iff.mp (hf a))

theorem Blameless.map {r : Except Error α} (hr : Blameless r) (f : α → β) :
    Blameless (r.map f) := blameless_iff.mpr ((blameless_iff.mp hr).map f)

/-- An operation that never blames its arguments. -/
def Stateful.Blameless (x : Stateful τ α) : Prop := ∀ s, AgileSeal.Blameless (x s).value.1

/-- The second step only has to be blameless for what the first one gives. -/
theorem Stateful.Blameless.bind {x : Stateful τ α} {f : α → Stateful τ β} (hx : x.Blameless)
    (hf : ∀ a s s', (x s).value = (.ok a, s') → (f a).Blameless) : (x >>= f).Blameless := by
  intro s
  rw [Stateful.value_bind]
  have hfirst := hx s
  rcases hv : (x s).value with ⟨result, s'⟩
  rw [hv] at hfirst
  cases result with
  | ok a => exact hf a s s' hv s'
  | error e => exact .error fun detail heq => hfirst detail (congrArg Except.error heq)

end

/-! ## Keys -/

theorem blameless_stretchPassphrase (text : String) (salt : Bytes) (cost : StretchCost) :
    Blameless (stretchPassphrase text salt cost) := by
  rw [stretchPassphrase]
  split
  · exact .error fun detail => Error.noConfusion
  · split
    · exact .error fun detail => Error.noConfusion
    · split
      · exact .error fun detail => Error.noConfusion
      · exact .mapError (fun e detail => Error.noConfusion) _

theorem blameless_ofStretched (suite : SuiteDefinition) (stretched salt : Bytes) :
    Blameless (KeyMaterial.ofStretched suite stretched salt) := by
  have hseed (algorithm : String) : Blameless (expandSeed suite stretched salt algorithm) :=
    .mapError (fun e detail => Error.noConfusion) _
  refine (hseed _).bind fun classical => ?_
  exact (hseed _).bind fun pqc => .ok _

theorem blameless_checkFor (k : KeyMaterial) (suite : SuiteDefinition) :
    Blameless (k.checkFor suite) := by
  rw [KeyMaterial.checkFor]
  cases k.problem? suite with
  | none => exact .ok ()
  | some problem => exact .error fun detail => Error.noConfusion

theorem blameless_load (files : FileSystem) (path : String) (suite : SuiteDefinition) :
    Blameless (KeyFile.load files path suite) := by
  have hkey (field text : String) : Blameless (KeyFile.readKey field text) :=
    .mapError (fun e detail => Error.noConfusion) _
  have hoptional (field : String) (text : Option String) :
      Blameless (KeyFile.readOptionalKey field text) := by
    cases text with
    | none => exact .ok none
    | some text => exact (hkey field text).map some
  have hmaterial (file : KeyFile) : Blameless (file.material suite) := by
    rw [KeyFile.material]
    split
    · exact .error fun detail => Error.noConfusion
    · split
      · exact .error fun detail => Error.noConfusion
      · refine (hkey _ _).bind fun classicalPublicKey => ?_
        refine (hkey _ _).bind fun pqcPublicKey => ?_
        refine (hoptional _ _).bind fun classicalPrivateKey => ?_
        refine (hoptional _ _).bind fun pqcPrivateKey => ?_
        exact (blameless_checkFor _ suite).bind fun _ => .ok _
  refine .bind (.mapError (fun e detail => Error.noConfusion) _) fun document => ?_
  refine .bind (.mapError (fun e detail => Error.noConfusion) _) fun file => ?_
  exact hmaterial file

/-! ## Encryption -/

namespace Sealing

variable {α : Type}

theorem blameless_ofExcept {r : Except Error α} (h : AgileSeal.Blameless r) :
    Stateful.Blameless (ofExcept r) := fun _ => h

theorem blameless_drawing (f : RandomStream → α × RandomStream) :
    Stateful.Blameless (drawing f) := fun _ => .ok _

theorem blameless_ofPrimitive (r : Except PrimitiveError α) :
    Stateful.Blameless (ofPrimitive r) := fun _ => .mapError (fun _ _ => Error.noConfusion) r

theorem blameless_primitive (f : RandomStream → Except PrimitiveError α × RandomStream) :
    Stateful.Blameless (primitive f) := fun s => .mapError (fun _ _ => Error.noConfusion) (f s).1

theorem blameless_report (e : Event) : Stateful.Blameless (report e) := fun _ => .ok ()

end Sealing

/-- An engine whose id can be written blames its arguments for an empty text only. -/
theorem Engine.blameless_encrypt {e : Engine} {plaintext associated : Bytes}
    (hplaintext : plaintext ≠ []) (hheader : (Header.ofSuite e.suite.id).encode = .ok associated)
    (keys : KeyMaterial) : Stateful.Blameless (e.encrypt plaintext keys) := by
  have hwritten : Blameless (Header.ofSuite e.suite.id).encode := hheader ▸ .ok associated
  rw [encrypt, if_neg hplaintext]
  refine .bind (Sealing.blameless_ofExcept (blameless_checkFor _ _)) fun _ _ _ _ => ?_
  refine .bind (Sealing.blameless_primitive _) fun _ _ _ _ => ?_
  refine .bind (Sealing.blameless_primitive _) fun _ _ _ _ => ?_
  refine .bind (Sealing.blameless_report _) fun _ _ _ _ => ?_
  refine .bind (Sealing.blameless_drawing _) fun _ _ _ _ => ?_
  refine .bind (Sealing.blameless_ofPrimitive _) fun _ _ _ _ => ?_
  refine .bind (Sealing.blameless_ofExcept hwritten) fun _ _ _ _ => ?_
  refine .bind (Sealing.blameless_drawing _) fun _ _ _ _ => ?_
  refine .bind (Sealing.blameless_ofPrimitive _) fun _ _ _ _ => ?_
  exact fun _ => .ok _

theorem Handler.blameless_encrypt {suite : SuiteDefinition} {plaintext associated : Bytes}
    (hplaintext : plaintext ≠ []) (hheader : (Header.ofSuite suite.id).encode = .ok associated)
    (params : Params) (files : FileSystem) (credentials : Credentials) :
    Stateful.Blameless ((Handler.new suite params).encrypt files plaintext credentials) := by
  have hengine (keys : KeyMaterial) :
      Stateful.Blameless ((Engine.new suite params).encrypt plaintext keys) :=
    Engine.blameless_encrypt hplaintext hheader keys
  have hwrong (h : Handler) : Stateful.Blameless (throw h.wrongCredentials : Sealing Bundle) :=
    fun _ => .error fun detail => Error.noConfusion
  rw [Handler.new]
  cases suite.mode with
  | passphrase =>
      cases credentials with
      | keyFile path => exact hwrong _
      | passphrase text =>
          refine .bind (Sealing.blameless_drawing _) fun salt _ _ _ => ?_
          refine .bind (Sealing.blameless_ofExcept (blameless_stretchPassphrase _ _ _))
            fun stretched _ _ _ => ?_
          refine .bind (Sealing.blameless_ofExcept (blameless_ofStretched _ _ _))
            fun keys _ _ _ => ?_
          refine .bind (hengine keys) fun bundle _ _ _ => ?_
          exact fun _ => .ok _
  | keyFile =>
      cases credentials with
      | passphrase text => exact hwrong _
      | keyFile path =>
          refine .bind (Sealing.blameless_ofExcept (blameless_load _ _ _)) fun keys _ _ _ => ?_
          exact hengine keys

/-! ## Ids -/

/-- The id of a suite that is read fits a header. -/
theorem SuiteDefinition.exists_encode_of_ofNames {id : String} {names : SuiteNames}
    {suite : SuiteDefinition} (h : SuiteDefinition.ofNames id names = .ok suite) :
    ∃ associated, (Header.ofSuite id).encode = .ok associated := by
  have hdescribe := ofNames_eq_ok_iff.mp h
  refine ⟨_, (Header.encode_eq_ok_iff _ _).mpr ⟨⟨?_, hdescribe.short⟩, rfl⟩⟩
  refine Nat.pos_of_ne_zero fun hempty => ?_
  have hnil : Text.utf8 id = Text.utf8 "" := List.eq_nil_of_length_eq_zero hempty
  -- an empty id is all blanks
  have hblank := hdescribe.notBlank
  rw [Text.utf8_inj.mp hnil] at hblank
  cases hblank

theorem Config.exists_encode_of_suite? {c : Config} {id : String} {suite : SuiteDefinition}
    (h : c.suite? id = some suite) :
    ∃ associated, (Header.ofSuite suite.id).encode = .ok associated := by
  obtain ⟨names, -, hread⟩ := suite?_eq_some_iff.mp h
  rw [suite?_id h]
  exact SuiteDefinition.exists_encode_of_ofNames hread

/-! ## The service -/

/-- A bundle whose label fits a header is only too long to be written. -/
theorem Bundle.blameless_encode {b : Bundle} {id : String} (hlabel : b.toHeader = Header.ofSuite id)
    {associated : Bytes} (hheader : (Header.ofSuite id).encode = .ok associated) :
    Blameless b.encode := by
  rw [encode, hlabel, hheader]
  simp only
  split
  · exact .error fun detail => Error.noConfusion
  · exact .ok _

namespace Service

variable {σ : Type}

/-- **An encryption blames its arguments for an empty text only.** -/
theorem blameless_encrypt {c : Config} {w : World σ} (hw : w.registry.Follows c)
    {plaintext : Bytes} (hplaintext : plaintext ≠ []) (credentials : Credentials) :
    Blameless (encrypt plaintext credentials w).value.1 := by
  obtain ⟨r, hactive, -⟩ := value_activeHandler hw
  rw [encrypt, Stateful.value_bind, hactive]
  cases hsuite : c.suite? c.active with
  | none =>
      have hanswer : c.answer c.active = .error (.algorithmNotFound c.active) := by
        rw [Config.answer, Config.handler?, hsuite, Option.map_none]
      rw [hanswer]
      exact .error fun detail => Error.noConfusion
  | some suite =>
      obtain ⟨associated, hheader⟩ := Config.exists_encode_of_suite? hsuite
      rw [Config.answer_eq_ok_iff.mpr ⟨suite, hsuite, rfl⟩]
      refine Stateful.Blameless.bind (x := encryptWith (.new suite c.params) plaintext credentials)
        ?_ ?_ { w with registry := r }
      · refine .bind (fun _ => .ok _) fun files _ _ _ w' => ?_
        exact Handler.blameless_encrypt hplaintext hheader c.params files credentials w'.random
      · intro b w₁ w₂ hb
        obtain ⟨files, w₃, -, hseal⟩ := Stateful.bind_eq_ok hb
        have hvalue : ((Handler.new suite c.params).encrypt files plaintext credentials
            w₃.random).value.1 = .ok b := (Prod.mk.inj hseal).1
        obtain ⟨hlabel, -⟩ := Handler.bundle_of_encrypt (Config.params_validate hw.valid)
          (Prod.ext hvalue rfl)
        refine .bind (fun _ => .ok _) fun _ _ _ _ _ => ?_
        exact Bundle.blameless_encode hlabel hheader

end Service

end AgileSeal
