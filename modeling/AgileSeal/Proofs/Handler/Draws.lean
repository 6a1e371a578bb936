import AgileSeal.Proofs.Handler.Opening
import AgileSeal.Proofs.Random.Script

set_option autoImplicit false

/-! # What an encryption draws

Encryptions are scripts (`Scripted`): step by step it is said what each random byte is drawn for.
An encryption that fails on the way has made the draws up to there; one that succeeds has drawn both
secrets, the salt of the cipher's key and the nonce, in this order, and before them the salt of the
passphrase if there is one (`Handler.Sealed.draws_eq`, `Handler.FileSealed.draws_eq`).
-/

namespace AgileSeal

/-! ## Operations that are scripts -/

/-- An operation that uses the stream as a script does. -/
structure Scripted {α : Type} (m : Sealing α) where
  script : Script (Except Error α)
  follows : ∀ s, (m s).value = script.run s

namespace Scripted

variable {α β : Type} {m : Sealing α}

/-- The draws of an operation on a stream. -/
def draws (c : Scripted m) (s : RandomStream) : List Draw := c.script.draws s

/-- The draws of an operation lead from where the stream was to where it is. -/
theorem spent (c : Scripted m) (s : RandomStream) : s.Spent (c.draws s) (m s).value.2 := by
  rw [c.follows]
  exact c.script.spent s

/-! ### Steps -/

/-- A step that draws nothing. -/
def still (result : Except Error α) (h : ∀ s, (m s).value = (result, s)) : Scripted m :=
  ⟨.done result, h⟩

def ofExcept (r : Except Error α) : Scripted (Sealing.ofExcept r) := still r fun _ => rfl

def ofPrimitive (r : Except PrimitiveError α) : Scripted (Sealing.ofPrimitive r) :=
  still _ fun _ => rfl

def report (e : Event) : Scripted (Sealing.report e) := still _ fun _ => rfl

def pure (a : α) : Scripted (Pure.pure a : Sealing α) := still (.ok a) fun _ => rfl

def throw (e : Error) : Scripted (MonadExcept.throw e : Sealing α) := still (.error e) fun _ => rfl

/-- A step that draws some bytes. -/
def drawing (purpose : Purpose) (count : Nat) :
    Scripted (Sealing.drawing (RandomStream.draw count)) :=
  ⟨.draw purpose count fun bytes => .done (.ok bytes), fun _ => rfl⟩

/-- An encapsulation draws nothing for a public key of a wrong length. -/
def encapsulate (purpose : Purpose) (k : Kem) (publicKey : Bytes) :
    Scripted (Sealing.primitive (k.encapsulate publicKey)) where
  script :=
    if publicKey.length = k.publicKeyLength then
      .draw purpose seedLength fun random =>
        .done ((k.transport publicKey random).mapError fun e => .encryptionFailed e.message)
    else .done (.error (.encryptionFailed
      (PrimitiveError.invalidInput (k.publicKeyProblem publicKey.length)).message))
  follows s := by
    show ((k.encapsulate publicKey s).1.mapError _, (k.encapsulate publicKey s).2) = _
    rw [Kem.encapsulate]
    split <;> rfl

/-- New keys of a suite are made from two seeds. -/
def generate (suite : SuiteDefinition) : Scripted (Sealing.drawing (KeyMaterial.generate suite)) :=
  ⟨.draw .classicalKey seedLength fun classical => .draw .pqcKey seedLength fun pqc =>
    .done (.ok (.ofKeyPairs (suite.classicalKem.kem.keyPair classical)
      (suite.pqcKem.kem.keyPair pqc) none)), fun _ => rfl⟩

/-! ### Composition -/

/-- A step and what follows it when it succeeds. -/
def bind {x : Sealing α} {f : α → Sealing β} (cx : Scripted x) (cf : ∀ a, Scripted (f a)) :
    Scripted (x >>= f) where
  script := cx.script.bind fun
    | .ok a => (cf a).script
    | .error e => .done (.error e)
  follows s := by
    rw [Stateful.value_bind, cx.follows, Script.run_bind]
    rcases cx.script.run s with ⟨result, s'⟩
    cases result with
    | error e => rfl
    | ok a => exact (cf a).follows s'

/-- An operation that fails at once under a condition. -/
def checked {p : Prop} [Decidable p] {e : Error} (c : Scripted m) :
    Scripted (if p then MonadExcept.throw e else m) where
  script := if p then .done (.error e) else c.script
  follows s := by
    split
    · rfl
    · exact c.follows s

theorem draws_bind_ok {x : Sealing α} {f : α → Sealing β} {cx : Scripted x}
    {cf : ∀ a, Scripted (f a)} {s s' : RandomStream} {a : α} (h : (x s).value = (.ok a, s')) :
    (cx.bind cf).draws s = cx.draws s ++ (cf a).draws s' := by
  have hrun : cx.script.run s = (.ok a, s') := (cx.follows s).symm.trans h
  refine (Script.draws_bind _ _ _).trans ?_
  rw [hrun]
  rfl

/-- A step that draws nothing is passed over. -/
theorem draws_bind_still {x : Sealing α} {f : α → Sealing β} {cx : Scripted x}
    {cf : ∀ a, Scripted (f a)} {s s' : RandomStream} {a : α} (h : (x s).value = (.ok a, s'))
    (hx : cx.draws s = []) : (cx.bind cf).draws s = (cf a).draws s' := by
  rw [draws_bind_ok h, hx, List.nil_append]

/-- A step that draws once puts its draw in front. -/
theorem draws_bind_draw {x : Sealing α} {f : α → Sealing β} {cx : Scripted x}
    {cf : ∀ a, Scripted (f a)} {s s' : RandomStream} {a : α} {d : Draw} {ds : List Draw}
    (h : (x s).value = (.ok a, s')) (hx : cx.draws s = [d]) (hf : (cf a).draws s' = ds) :
    (cx.bind cf).draws s = d :: ds := by
  rw [draws_bind_ok h, hx, hf, List.singleton_append]

theorem draws_encapsulate {purpose : Purpose} {k : Kem} {publicKey : Bytes}
    (h : publicKey.length = k.publicKeyLength) (s : RandomStream) :
    (encapsulate purpose k publicKey).draws s = [⟨purpose, s.position, seedLength⟩] := by
  have hscript : (encapsulate purpose k publicKey).script = .draw purpose seedLength _ := if_pos h
  rw [draws, hscript]
  rfl

theorem draws_checked {p : Prop} [Decidable p] {e : Error} {c : Scripted m} (h : ¬p)
    (s : RandomStream) :
    (c.checked : Scripted (if p then MonadExcept.throw e else m)).draws s = c.draws s := by
  have hscript : (c.checked : Scripted (if p then MonadExcept.throw e else m)).script = c.script :=
    if_neg h
  rw [draws, hscript, draws]

end Scripted

/-! ## Encryption -/

namespace Engine

/-- What each draw of an encryption is for. -/
def scripted (e : Engine) (plaintext : Bytes) (keys : KeyMaterial) :
    Scripted (e.encrypt plaintext keys) :=
  .checked <| .bind (.ofExcept _) fun _ =>
    .bind (.encapsulate .classicalSecret _ _) fun _ =>
    .bind (.encapsulate .pqcSecret _ _) fun _ =>
    .bind (.report _) fun _ =>
    .bind (.drawing .cipherSalt _) fun _ =>
    .bind (.ofPrimitive _) fun _ =>
    .bind (.ofExcept _) fun _ =>
    .bind (.drawing .nonce _) fun _ =>
    .bind (.ofPrimitive _) fun _ => .pure _

/-- The draws of a successful encryption from a position on. -/
def drawn (e : Engine) (start : Nat) : List Draw :=
  [⟨.classicalSecret, start, seedLength⟩,
    ⟨.pqcSecret, start + seedLength, seedLength⟩,
    ⟨.cipherSalt, start + seedLength + seedLength, e.saltLength⟩,
    ⟨.nonce, start + seedLength + seedLength + e.saltLength, e.suite.symmetric.nonceLength⟩]

/-- A run has made all the draws. -/
theorem Run.draws_eq {e : Engine} {plaintext : Bytes} {keys : KeyMaterial} {s : RandomStream}
    (r : Run e plaintext keys s) : (e.scripted plaintext keys).draws s = e.drawn s.position := by
  obtain ⟨hclassical, hpqc, -, -⟩ := (KeyMaterial.problem?_eq_none_iff _ _).mp r.keysFit
  have hfit := (KeyMaterial.checkFor_eq_ok_iff _ _).mpr r.keysFit
  have h₁ := Kem.encapsulate_eq_ok_iff.mpr ⟨hclassical, r.classical, rfl⟩
  have h₂ := Kem.encapsulate_eq_ok_iff (s := (s.draw seedLength).2).mpr ⟨hpqc, r.pqc, rfl⟩
  refine (Scripted.draws_checked r.nonempty s).trans ?_
  refine (Scripted.draws_bind_still (Sealing.ofExcept_eq_ok_iff.mpr ⟨hfit, rfl⟩) rfl).trans ?_
  refine Scripted.draws_bind_draw (Sealing.primitive_eq_ok_iff.mpr h₁)
    (Scripted.draws_encapsulate hclassical _) ?_
  refine Scripted.draws_bind_draw (Sealing.primitive_eq_ok_iff.mpr h₂)
    (Scripted.draws_encapsulate hpqc _) ?_
  refine (Scripted.draws_bind_still (Sealing.report_eq_ok_iff (a := ()).mpr rfl) rfl).trans ?_
  refine Scripted.draws_bind_draw (Sealing.drawing_eq_ok_iff.mpr rfl) rfl ?_
  refine (Scripted.draws_bind_still (Sealing.ofPrimitive_eq_ok_iff.mpr ⟨r.derived, rfl⟩)
    rfl).trans ?_
  refine (Scripted.draws_bind_still (Sealing.ofExcept_eq_ok_iff.mpr ⟨r.header, rfl⟩) rfl).trans ?_
  refine Scripted.draws_bind_draw (Sealing.drawing_eq_ok_iff.mpr rfl) rfl ?_
  exact Scripted.draws_bind_still (Sealing.ofPrimitive_eq_ok_iff.mpr ⟨r.sealed, rfl⟩) rfl

end Engine

namespace Handler

/-- What each draw of an encryption is for, before the draws of the engine. -/
def scripted (h : Handler) (files : FileSystem) (plaintext : Bytes) (credentials : Credentials) :
    Scripted (h.encrypt files plaintext credentials) :=
  match h, credentials with
  | .passphrase engine _, .passphrase _ =>
    .bind (.drawing .passphraseSalt _) fun _ =>
      .bind (.ofExcept _) fun _ =>
      .bind (.ofExcept _) fun keys =>
      .bind (engine.scripted plaintext keys) fun _ => .pure _
  | .keyFile engine, .keyFile _ =>
    .bind (.ofExcept _) fun keys => engine.scripted plaintext keys
  | .passphrase _ _, .keyFile _ => .throw _
  | .keyFile _, .passphrase _ => .throw _

variable {suite : SuiteDefinition} {params : Params} {files : FileSystem} {plaintext : Bytes}
  {s : RandomStream}

/-- With a passphrase its salt is drawn first. -/
theorem Sealed.draws_eq {text : String} (x : Sealed suite params text plaintext s)
    (files : FileSystem) :
    ((Handler.new suite params).scripted files plaintext (.passphrase text)).draws s =
      ⟨.passphraseSalt, s.position, params.saltLength.toNat⟩ ::
        (Engine.new suite params).drawn (s.position + params.saltLength.toNat) := by
  have hrun := Engine.encrypt_of_run x.run
  rcases hv : ((Engine.new suite params).encrypt plaintext x.keys
    (s.draw params.saltLength.toNat).2).value with ⟨result, s'⟩
  rw [hv] at hrun
  cases hrun
  rw [new_of_passphrase x.mode]
  refine Scripted.draws_bind_draw (Sealing.drawing_eq_ok_iff.mpr rfl) rfl ?_
  refine (Scripted.draws_bind_still (Sealing.ofExcept_eq_ok_iff.mpr ⟨x.stretch, rfl⟩) rfl).trans ?_
  refine (Scripted.draws_bind_still (Sealing.ofExcept_eq_ok_iff.mpr ⟨x.expand, rfl⟩) rfl).trans ?_
  refine (Scripted.draws_bind_ok hv).trans ?_
  exact (List.append_nil _).trans x.run.draws_eq

/-- With a key file the engine draws alone. -/
theorem FileSealed.draws_eq {path : String} (x : FileSealed suite params files path plaintext s) :
    ((Handler.new suite params).scripted files plaintext (.keyFile path)).draws s =
      (Engine.new suite params).drawn s.position := by
  rw [new_of_keyFile x.mode]
  refine (Scripted.draws_bind_still (Sealing.ofExcept_eq_ok_iff.mpr ⟨x.load, rfl⟩) rfl).trans ?_
  exact x.run.draws_eq

end Handler

end AgileSeal
