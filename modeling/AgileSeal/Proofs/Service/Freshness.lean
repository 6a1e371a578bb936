import AgileSeal.Proofs.Handler.Draws
import AgileSeal.Proofs.Service.Lookups
import AgileSeal.Proofs.Service.Migration
import Mathlib.Logic.Function.Basic

set_option autoImplicit false

/-! # Random bytes are never used twice

All services draw from one stream. Whatever is asked of a service, the draws of the request
(`Request.draws`) lead from where the stream was to where it is (`Request.spent`), also when the
request fails on the way. So over all requests to all services, in any order, the draws follow each
other (`Cores.spent_history`), and no byte is drawn twice.

An encryption that succeeds has made all its draws (`Request.Seals.passphrase`); its bundle stores
the salts and the nonce among them.
-/

namespace AgileSeal

variable {σ α β : Type}

/-! ## Steps that draw nothing -/

namespace Action

/-- An operation that leaves the stream as it is. -/
def Still (m : Action σ α) : Prop := ∀ w, (m w).value.2.random = w.random

/-- What draws nothing does not matter for the stream. -/
theorem random_bind {m : Action σ α} {f : α → Action σ β} (hf : ∀ a, (f a).Still) (w : World σ) :
    ((m >>= f) w).value.2.random = (m w).value.2.random := by
  rw [Stateful.value_bind]
  rcases (m w).value with ⟨result, w'⟩
  cases result with
  | error e => rfl
  | ok a => exact hf a w'

namespace Still

theorem pure (a : α) : Still (Pure.pure a : Action σ α) := fun _ => rfl

theorem resolving (m : Resolving σ α) : (Action.resolving m).Still := fun _ => rfl

theorem ofExcept (r : Except Error α) : (Action.ofExcept r : Action σ α).Still := fun _ => rfl

theorem filing (m : Filing α) : (Action.filing m : Action σ α).Still := fun _ => rfl

theorem logged (m : Logged α) : (Action.logged m : Action σ α).Still := fun _ => rfl

theorem files : (Action.files : Action σ FileSystem).Still := fun _ => rfl

theorem bind {m : Action σ α} {f : α → Action σ β} (hm : m.Still) (hf : ∀ a, (f a).Still) :
    (m >>= f).Still := fun w => (random_bind hf w).trans (hm w)

end Still

/-- The draws of what follows a step that draws nothing. -/
def drawsAfter (m : Action σ α) (draws : α → World σ → List Draw) (w : World σ) : List Draw :=
  match (m w).value with
  | (.ok a, w') => draws a w'
  | (.error _, _) => []

/-- A step that draws nothing, and what follows it if it succeeds. -/
theorem Still.spent_bind {m : Action σ α} {f : α → Action σ β} {draws : α → World σ → List Draw}
    (hm : m.Still) (hf : ∀ a (w : World σ), w.random.Spent (draws a w) (f a w).value.2.random)
    (w : World σ) : w.random.Spent (m.drawsAfter draws w) ((m >>= f) w).value.2.random := by
  have hstill := hm w
  rw [drawsAfter, Stateful.value_bind]
  rcases hvalue : (m w).value with ⟨result, w'⟩
  rw [hvalue] at hstill
  rw [← hstill]
  cases result with
  | error e => exact .nothing _
  | ok a => exact hf a w'

end Action

namespace Service

theorem still_resolve (id : String) : (resolve id : Action σ Handler).Still :=
  (Action.Still.resolving _).bind .ofExcept

theorem still_activeHandler : (activeHandler : Action σ Handler).Still :=
  (Action.Still.resolving _).bind .ofExcept

theorem still_decrypt (blob : Bytes) (credentials : Credentials) :
    (decrypt blob credentials : Action σ Payload).Still := by
  refine Action.Still.bind ?_ fun outcome => .ofExcept _
  exact (Action.Still.resolving _).bind fun candidates => Action.Still.files.bind fun files =>
    .logged _

theorem still_canDecrypt (blob : Bytes) : (canDecrypt blob : Action σ Bool).Still := by
  unfold canDecrypt
  cases Bundle.suiteIdOf? blob with
  | none => exact .pure false
  | some id => exact (Action.Still.resolving _).bind fun candidates => .pure _

theorem still_writeKeys (path : String) (suite : SuiteDefinition) (keys : KeyMaterial) :
    (writeKeys path suite keys : Action σ Unit).Still := .filing _

/-! ## The draws of an operation -/

/-- An encryption draws what the handler for new encryptions draws. -/
def drawsOfEncrypt (plaintext : Bytes) (credentials : Credentials) : World σ → List Draw :=
  activeHandler.drawsAfter fun handler w =>
    (handler.scripted w.files plaintext credentials).draws w.random

/-- Moving a bundle draws what the encryption of its text draws. -/
def drawsOfReencrypt (blob : Bytes) (old new : Credentials) : World σ → List Draw :=
  (decrypt blob old).drawsAfter fun payload => drawsOfEncrypt payload.plaintext new

/-- Provisioning draws the seeds of two key pairs. -/
def drawsOfProvision (id : String) : World σ → List Draw :=
  (resolve id).drawsAfter fun handler w => (Scripted.generate handler.suite).draws w.random

theorem spent_encrypt (plaintext : Bytes) (credentials : Credentials) (w : World σ) :
    w.random.Spent (drawsOfEncrypt plaintext credentials w)
      (encrypt plaintext credentials w).value.2.random := by
  refine still_activeHandler.spent_bind (fun handler w => ?_) w
  -- the bundle is reported and written after all draws
  rw [Action.random_bind fun bundle => (Action.Still.logged _).bind fun _ => .ofExcept _]
  exact (handler.scripted w.files plaintext credentials).spent w.random

theorem spent_reencrypt (blob : Bytes) (old new : Credentials) (w : World σ) :
    w.random.Spent (drawsOfReencrypt blob old new w)
      (reencrypt blob old new w).value.2.random := by
  refine (still_decrypt blob old).spent_bind (fun payload w => ?_) w
  rw [Action.random_bind fun migrated => .bind (fun _ => rfl) fun v =>
    (Action.Still.logged _).bind fun _ => .pure migrated]
  exact spent_encrypt payload.plaintext new w

theorem spent_provision (id path : String) (w : World σ) :
    w.random.Spent (drawsOfProvision id w) (provision id path w).value.2.random := by
  refine (still_resolve id).spent_bind (fun handler w => ?_) w
  rw [Action.random_bind fun keys => still_writeKeys path handler.suite keys]
  exact (Scripted.generate handler.suite).spent w.random

end Service

/-- The draws of a request. Nothing is drawn to look for handlers and to decrypt. -/
def Request.draws (request : Request) (w : World σ) : List Draw :=
  match request with
  | encrypt plaintext credentials => Service.drawsOfEncrypt plaintext credentials w
  | reencrypt blob old new => Service.drawsOfReencrypt blob old new w
  | provision id _ => Service.drawsOfProvision id w
  | resolve _ | activeHandler | candidates | activeSuite | canDecrypt _ | decrypt _ _ => []

/-- **Whatever is asked of a service**, its draws lead from where the stream was to where it is. -/
theorem Request.spent (request : Request) (w : World σ) :
    w.random.Spent (request.draws w) (request.run w).random := by
  have still {α : Type} {m : Action σ α} (h : m.Still) : w.random.Spent [] (m w).value.2.random :=
    h w ▸ .nothing _
  cases request with
  | resolve id => exact still (Service.still_resolve id)
  | activeHandler => exact still Service.still_activeHandler
  | candidates => exact still (.resolving _)
  | activeSuite => exact still (Service.still_activeHandler.bind fun handler => .pure _)
  | canDecrypt blob => exact still (Service.still_canDecrypt blob)
  | encrypt plaintext credentials => exact Service.spent_encrypt plaintext credentials w
  | decrypt blob credentials => exact still (Service.still_decrypt blob credentials)
  | reencrypt blob old new => exact Service.spent_reencrypt blob old new w
  | provision id path => exact Service.spent_provision id path w

/-! ## Successful encryptions -/

/-- A request that seals a blob with credentials. -/
inductive Request.Seals (w : World σ) : Request → Credentials → Bytes → Prop
  | encrypt {plaintext sealed : Bytes} {credentials : Credentials}
    (h : (Service.encrypt plaintext credentials w).value.1 = .ok sealed) :
    Seals w (.encrypt plaintext credentials) credentials sealed
  | reencrypt {blob sealed : Bytes} {old new : Credentials}
    (h : (Service.reencrypt blob old new w).value.1 = .ok sealed) :
    Seals w (.reencrypt blob old new) new sealed

/-- Both requests that seal a blob encrypt a text, after handlers have been looked up. -/
theorem Request.Seals.exists_encrypt {c : Config} {w : World σ} (hw : w.registry.Follows c)
    {request : Request} {credentials : Credentials} {sealed : Bytes}
    (h : Seals w request credentials sealed) :
    ∃ (plaintext : Bytes) (r : Registry σ), r.Follows c ∧
      (Service.encrypt plaintext credentials { w with registry := r }).value.1 = .ok sealed ∧
      request.draws w = Service.drawsOfEncrypt plaintext credentials { w with registry := r } := by
  cases h with
  | @encrypt plaintext _ _ h => exact ⟨plaintext, w.registry, hw, h, rfl⟩
  | @reencrypt blob _ old _ h =>
      rcases hv : (Service.reencrypt blob old credentials w).value with ⟨result, w'⟩
      rw [hv] at h
      cases h
      obtain ⟨payload, w₁, hdecrypt, hv⟩ := Stateful.bind_eq_ok hv
      obtain ⟨migrated, w₂, hencrypt, hv⟩ := Stateful.bind_eq_ok hv
      cases hv
      obtain ⟨r, hstill, hr⟩ := Service.value_decrypt hw blob old
      have hw₁ : w₁ = { w with registry := r } := by
        rw [hdecrypt] at hstill
        exact congrArg Prod.snd hstill
      refine ⟨payload.plaintext, r, hr, ?_, ?_⟩
      · rw [← hw₁, hencrypt]
      · rw [← hw₁]
        show Action.drawsAfter _ _ w = _
        rw [Action.drawsAfter, hdecrypt]

namespace Service

/-- A service draws for an encryption what the handler of its active suite draws. -/
theorem drawsOfEncrypt_eq {c : Config} {w : World σ} (hw : w.registry.Follows c)
    {suite : SuiteDefinition} (hsuite : c.suite? c.active = some suite) (plaintext : Bytes)
    (credentials : Credentials) : drawsOfEncrypt plaintext credentials w
      = ((Handler.new suite c.params).scripted w.files plaintext credentials).draws w.random := by
  obtain ⟨r, hactive, -⟩ := value_activeHandler hw
  rw [Config.answer_eq_ok_iff.mpr ⟨suite, hsuite, rfl⟩] at hactive
  rw [drawsOfEncrypt, Action.drawsAfter, hactive]

end Service

/-- Behind the draws of an engine the stream stands 64 bytes, a salt and a nonce further on. -/
theorem Engine.stop_of_drawn {e : Engine} {start stop : Nat}
    (h : Consecutive start (e.drawn start) stop) :
    stop = start + 64 + e.saltLength + e.suite.symmetric.nonceLength := by
  obtain ⟨-, -, -, -, hstop⟩ := h
  exact hstop.symm

section

variable {c : Config} {w : World σ} {request : Request} {sealed : Bytes}

/-- With a passphrase everything that the bundle stores in the open is drawn, in this order: the
salt of the passphrase, behind both secrets the salt of the cipher's key, and the nonce. -/
theorem Request.Seals.passphrase {text : String} (hw : w.registry.Follows c)
    (h : Seals w request (.passphrase text) sealed) :
    ∃ suite b, c.suite? c.active = some suite ∧ Bundle.decode sealed = .ok b ∧
      request.draws w = ⟨.passphraseSalt, w.random.position, c.params.saltLength.toNat⟩ ::
        (Engine.new suite c.params).drawn (w.random.position + c.params.saltLength.toNat) ∧
      b.passphraseSalt = some (w.random.segment w.random.position c.params.saltLength.toNat) ∧
      b.kdfSalt = some (w.random.segment (w.random.position + c.params.saltLength.toNat + 64)
        c.params.saltLength.toNat) ∧
      b.nonce = w.random.segment (w.random.position + 2 * c.params.saltLength.toNat + 64)
        suite.symmetric.nonceLength := by
  obtain ⟨plaintext, r, hr, hencrypt, hdraws⟩ := h.exists_encrypt hw
  let v : World σ := { w with registry := r }
  have hv : v.registry.Follows c := hr
  obtain ⟨suite, -, -, hsuite, -, -⟩ := Service.exists_of_encrypt hv hencrypt
  obtain ⟨x, hblob⟩ := Service.exists_sealed_of_encrypt hv hsuite hencrypt
  refine ⟨suite, x.bundle, hsuite, Bundle.decode_of_encode rfl rfl hblob, ?_, ?_, rfl, ?_⟩
  · rw [hdraws, Service.drawsOfEncrypt_eq hv hsuite]
    exact x.draws_eq v.files
  · exact KeyMaterial.passphraseSalt_ofStretched x.expand
  · show w.random.segment (w.random.position + c.params.saltLength.toNat + 64
      + c.params.saltLength.toNat) suite.symmetric.nonceLength = _
    congr 1
    omega

/-- With a key file the engine draws alone. -/
theorem Request.Seals.keyFile {path : String} (hw : w.registry.Follows c)
    (h : Seals w request (.keyFile path) sealed) :
    ∃ suite, c.suite? c.active = some suite ∧
      request.draws w = (Engine.new suite c.params).drawn w.random.position := by
  obtain ⟨plaintext, r, hr, hencrypt, hdraws⟩ := h.exists_encrypt hw
  let v : World σ := { w with registry := r }
  have hv : v.registry.Follows c := hr
  obtain ⟨suite, b, s', hsuite, hseal, -⟩ := Service.exists_of_encrypt hv hencrypt
  obtain ⟨x, -⟩ := Handler.exists_fileSealed hseal
  refine ⟨suite, hsuite, ?_⟩
  rw [hdraws, Service.drawsOfEncrypt_eq hv hsuite]
  exact x.draws_eq

end

/-! ## Services that share a stream -/

/-- Looking up handlers in a registry of a configuration leads to one of the same configuration. -/
theorem Registry.Built.lookedUp {c : Config} {r : Registry σ} {s : σ} {x : Registry σ × σ}
    (hr : Built c r) (h : LookedUp (r, s) x) : Built c x.1 := by
  induction h with
  | none => exact hr
  | find id _ ih => exact ih.find id _

/-- Services with one stream and one file system, each with a registry of its own configuration. -/
structure Cores (ι σ : Type) (config : ι → Config) where
  random : RandomStream
  files : FileSystem
  registry : ι → Registry σ
  factories : ι → σ
  built : ∀ i, Registry.Built (config i) (registry i)

/-- What happens next: a service is asked for something, or somebody changes the files. -/
inductive Turn (ι : Type)
  | ask (i : ι) (request : Request)
  | change (files : FileSystem)

namespace Cores

variable {ι : Type} {config : ι → Config}

/-- What one of the services works on. -/
def world (c : Cores ι σ config) (i : ι) : World σ :=
  ⟨c.registry i, c.factories i, c.random, c.files⟩

/-- The draws of a turn. -/
def draws (c : Cores ι σ config) : Turn ι → List Draw
  | .ask i request => request.draws (c.world i)
  | .change _ => []

variable [DecidableEq ι]

/-- The services after a request to one of them. -/
def ask (c : Cores ι σ config) (i : ι) (request : Request) : Cores ι σ config where
  random := (request.run (c.world i)).random
  files := (request.run (c.world i)).files
  registry := Function.update c.registry i (request.run (c.world i)).registry
  factories := Function.update c.factories i (request.run (c.world i)).factories
  built j := by
    by_cases hj : j = i
    · subst hj
      rw [Function.update_self]
      exact (c.built j).lookedUp (request.looksUp (c.world j))
    · rw [Function.update_of_ne hj]
      exact c.built j

/-- The services after a turn. -/
def turn (c : Cores ι σ config) : Turn ι → Cores ι σ config
  | .ask i request => c.ask i request
  | .change files => { c with files := files }

/-- The services after some turns. -/
def after (c : Cores ι σ config) : List (Turn ι) → Cores ι σ config
  | [] => c
  | t :: rest => (c.turn t).after rest

/-- All draws of some turns. -/
def history (c : Cores ι σ config) : List (Turn ι) → List Draw
  | [] => []
  | t :: rest => c.draws t ++ (c.turn t).history rest

theorem spent_turn (c : Cores ι σ config) (t : Turn ι) :
    c.random.Spent (c.draws t) (c.turn t).random := by
  cases t with
  | ask i request => exact request.spent (c.world i)
  | change files => exact .nothing c.random

/-- All draws lead from where the stream was to where it is. -/
theorem spent_history (c : Cores ι σ config) (turns : List (Turn ι)) :
    c.random.Spent (c.history turns) (c.after turns).random := by
  induction turns generalizing c with
  | nil => exact .nothing c.random
  | cons t rest ih => exact (c.spent_turn t).append (ih (c.turn t))

/-- **No random byte is used twice.** Over all requests to all services, in any order and whether
they succeed or fail, no two draws have a byte in common. Whatever has happened before, an
encryption with a passphrase draws the salt of the passphrase, both secrets, the salt of the cipher's
key and the nonce one behind the other and stores the salts and the nonce; one with a key file makes
the same draws without the first. To decrypt, nothing is drawn. -/
theorem draws_never_overlap (c : Cores ι σ config) (turns : List (Turn ι)) :
    (c.history turns).Pairwise Draw.Disjoint ∧
    c.random.Spent (c.history turns) (c.after turns).random ∧
    ∀ i,
      let w := (c.after turns).world i
      let o := w.random.position
      let s := (config i).params.saltLength.toNat
      (∀ request text sealed, Request.Seals w request (.passphrase text) sealed →
        ∃ suite b, (config i).suite? (config i).active = some suite ∧
          Bundle.decode sealed = .ok b ∧
          request.draws w = [⟨.passphraseSalt, o, s⟩, ⟨.classicalSecret, o + s, 32⟩,
            ⟨.pqcSecret, o + s + 32, 32⟩, ⟨.cipherSalt, o + s + 64, s⟩,
            ⟨.nonce, o + 2 * s + 64, suite.symmetric.nonceLength⟩] ∧
          b.passphraseSalt = some (c.random.segment o s) ∧
          b.kdfSalt = some (c.random.segment (o + s + 64) s) ∧
          b.nonce = c.random.segment (o + 2 * s + 64) suite.symmetric.nonceLength ∧
          (request.run w).random.position = o + 2 * s + 64 + suite.symmetric.nonceLength) ∧
      (∀ request path sealed, Request.Seals w request (.keyFile path) sealed →
        ∃ suite, (config i).suite? (config i).active = some suite ∧
          (request.run w).random.position = o + 64 + s + suite.symmetric.nonceLength) ∧
      ∀ blob credentials, (Service.decrypt blob credentials w).value.2.random = w.random ∧
        (Service.canDecrypt blob w).value.2.random = w.random := by
  have hhistory := c.spent_history turns
  refine ⟨hhistory.consecutive.pairwise_disjoint, hhistory, fun i => ?_⟩
  intro w o s
  have hw : w.registry.Follows (config i) := ((c.after turns).built i).follows
  have hsegment : w.random.segment = c.random.segment := hhistory.segment_eq
  refine ⟨fun request text sealed h => ?_, fun request path sealed h => ?_, fun blob credentials =>
    ⟨Service.still_decrypt blob credentials w, Service.still_canDecrypt blob w⟩⟩
  · obtain ⟨suite, b, hsuite, hdecode, hdraws, hpassphraseSalt, hkdfSalt, hnonce⟩ :=
      h.passphrase hw
    have hspent := request.spent w
    rw [hdraws] at hspent
    obtain ⟨-, hengine⟩ := hspent.consecutive
    have hstop := Engine.stop_of_drawn hengine
    have hsalts : o + s + 64 + s = o + 2 * s + 64 := by omega
    refine ⟨suite, b, hsuite, hdecode, ?_, ?_, ?_, ?_, ?_⟩
    · rw [hdraws, ← hsalts]
      rfl
    · rw [← hsegment]
      exact hpassphraseSalt
    · rw [← hsegment]
      exact hkdfSalt
    · rw [← hsegment]
      exact hnonce
    · rw [← hsalts]
      exact hstop
  · obtain ⟨suite, hsuite, hdraws⟩ := h.keyFile hw
    have hspent := request.spent w
    rw [hdraws] at hspent
    exact ⟨suite, hsuite, Engine.stop_of_drawn hspent.consecutive⟩

/-- A service with a passphrase and one with a key file. -/
def sampleConfigs : Bool → Config
  | false => sampleWriter "current"
  | true => sampleReader

/-- Both services of the sample share a stream of zeros. -/
theorem draws_never_overlap_shared : ∃ (c : Cores Bool Unit sampleConfigs)
    (request request' : Request) (sealed sealed' : Bytes) (b : Bundle),
    Request.Seals (c.world false) request (.passphrase "pw") sealed ∧
      Request.Seals (c.world true) request' (.keyFile "keys.json") sealed' ∧
      (c.history [.ask false request, .ask true request']).Pairwise Draw.Disjoint ∧
      Bundle.decode sealed = .ok b ∧ b.passphraseSalt = some (Bytes.zeros 16) ∧
      (request.run (c.world false)).random.position = 108 ∧
      (request'.run (c.world true)).random.position = 108 := by
  have hwriter : (sampleWriter "current").suite? "current"
      = some (sampleSuite "current" .passphrase) := rfl
  have hreader : sampleReader.suite? "archive" = some (sampleSuite "archive" .keyFile) := rfl
  obtain ⟨r, hr⟩ := Registry.exists_ofConfig rfl hwriter ()
  have hbuilt : Registry.Built (sampleWriter "current") r := .ofConfig hr
  obtain ⟨w₀, w₁, hbuilt', -, -, hload⟩ := Service.exists_provision_sample
  let c : Cores Bool Unit sampleConfigs := {
    random := sampleStream
    files := w₁.files
    registry := fun i => bif i then w₀.registry else r
    factories := fun _ => ()
    built := Bool.forall_bool.mpr ⟨hbuilt, hbuilt'⟩ }
  have hfollows : (c.world false).registry.Follows (sampleWriter "current") := hbuilt.follows
  have hfollows' : (c.world true).registry.Follows sampleReader := hbuilt'.follows
  obtain ⟨x⟩ := nonempty_sealed_sample "current" rfl
  obtain ⟨sealed, hsealed⟩ := x.exists_encode (by decide)
  have hencrypt : (Service.encrypt sampleText (.passphrase "pw") (c.world false)).value.1
      = .ok sealed := Service.encrypt_of_sealed hfollows hwriter x hsealed
  obtain ⟨y⟩ : Nonempty (Handler.FileSealed (sampleSuite "archive" .keyFile) sampleReader.params
      w₁.files "keys.json" sampleText sampleStream) := nonempty_fileSealed_sample rfl hload
  obtain ⟨sealed', hsealed'⟩ := y.exists_encode (by decide)
  have hencrypt' : (Service.encrypt sampleText (.keyFile "keys.json") (c.world true)).value.1
      = .ok sealed' := Service.encrypt_of_handler hfollows' hreader
    (Handler.encrypt_of_fileSealed y) hsealed'
  obtain ⟨hdisjoint, -, -⟩ := c.draws_never_overlap [.ask false _, .ask true _]
  obtain ⟨-, -, hall⟩ := c.draws_never_overlap []
  obtain ⟨suite, b, hsuite, hdecode, -, hsalt, -, -, hposition⟩ :=
    (hall false).1 _ _ _ (.encrypt hencrypt)
  obtain ⟨suite', hsuite', hposition'⟩ := (hall true).2.1 _ _ _ (.encrypt hencrypt')
  cases hsuite.symm.trans hwriter
  cases hsuite'.symm.trans hreader
  exact ⟨c, _, _, sealed, sealed', b, .encrypt hencrypt, .encrypt hencrypt', hdisjoint, hdecode,
    hsalt, hposition, hposition'⟩

end Cores

end AgileSeal
