import AgileSeal.Handler

set_option autoImplicit false

/-! # The stretch cache changes no answer

A cache is *sound* when every key in it is what stretching gives (`StretchCache.Sound`). The
empty cache is sound, stretching with a sound cache gives what stretching without one gives,
and the cache stays sound, whether the stretching succeeds or fails. So the keys that a handler
finds for a bundle (`Handler.material`) and the answer of its decryption do not depend on what
earlier attempts have left behind (`Handler.decryptWith_eq`).
-/

namespace AgileSeal

namespace StretchCache

/-- **The cache invariant**: every key is what stretching gives. -/
def Sound (c : StretchCache) : Prop :=
  ∀ e ∈ c.entries, stretchPassphrase e.passphrase e.salt e.cost = .ok e.key

theorem sound_empty : empty.Sound := by
  intro e he
  cases he

theorem Sound.eq_of_find? {c : StretchCache} (h : c.Sound) {passphrase : String} {salt : Bytes}
    {cost : StretchCost} {key : Bytes} (hf : c.find? passphrase salt cost = some key) :
    stretchPassphrase passphrase salt cost = .ok key := by
  obtain ⟨e, he, rfl⟩ := Option.map_eq_some_iff.mp hf
  have hkey : e.cost = cost ∧ e.salt = salt ∧ e.passphrase = passphrase := by
    simpa using List.find?_some he
  obtain ⟨rfl, rfl, rfl⟩ := hkey
  exact h e (List.mem_of_find?_eq_some he)

/-- A sound cache answers like stretching itself and stays sound. -/
theorem Sound.stretch {c : StretchCache} (h : c.Sound) (passphrase : String) (salt : Bytes)
    (cost : StretchCost) : ∃ c' : StretchCache,
      c.stretch passphrase salt cost = (stretchPassphrase passphrase salt cost, c') ∧ c'.Sound := by
  rcases c.stretch_cases passphrase salt cost with ⟨key, hfind, hfound⟩ | ⟨key, -, hkey, hnew⟩ |
    ⟨e, -, hfail, hfails⟩
  · exact ⟨c, by rw [hfound, h.eq_of_find? hfind], h⟩
  · refine ⟨_, by rw [hnew, hkey], ?_⟩
    intro e he
    rcases List.mem_append.mp he with hold | hnewest
    · exact h e hold
    · rw [List.mem_singleton.mp hnewest]
      exact hkey
  · exact ⟨c, by rw [hfails, hfail], h⟩

end StretchCache

namespace Handler

/-- The keys for a passphrase and a bundle, stretched anew. -/
def passphraseMaterial (engine : Engine) (params : Params) (b : Bundle) (text : String) :
    Except String KeyMaterial :=
  match b.passphraseSalt with
  | none => .error "passphrase salt is missing"
  | some salt =>
    match stretchPassphrase text salt (costOf engine params b) with
    | .error e => .error e.message
    | .ok stretched => (KeyMaterial.ofStretched engine.suite stretched salt).mapError Error.message

/-- The keys for a bundle, found without a cache. -/
def material (h : Handler) (files : FileSystem) (b : Bundle) (credentials : Credentials) :
    Except String KeyMaterial :=
  match h, credentials with
  | .passphrase engine params, .passphrase text => passphraseMaterial engine params b text
  | .keyFile engine, .keyFile path =>
    (KeyFile.load files path engine.suite).mapError Error.message
  | _, _ => .error "credentials do not match key management mode"

theorem passphraseKeys_spec (engine : Engine) (params : Params) (b : Bundle) (text : String)
    {cache : StretchCache} (hc : cache.Sound) : ∃ cache' : StretchCache,
      passphraseKeys engine params b text cache
        = (passphraseMaterial engine params b text, cache') ∧ cache'.Sound := by
  rw [passphraseKeys, passphraseMaterial]
  cases b.passphraseSalt with
  | none => exact ⟨cache, rfl, hc⟩
  | some salt =>
      obtain ⟨cache', hstretch, hsound⟩ := hc.stretch text salt (costOf engine params b)
      refine ⟨cache', ?_, hsound⟩
      simp only [hstretch]
      cases stretchPassphrase text salt (costOf engine params b) <;> rfl

/-- With a sound cache a handler finds the keys that it finds without one. -/
theorem keysFor_spec (h : Handler) (files : FileSystem) (b : Bundle) (credentials : Credentials)
    {cache : StretchCache} (hc : cache.Sound) : ∃ cache' : StretchCache,
      h.keysFor files b credentials cache = (h.material files b credentials, cache') ∧
        cache'.Sound := by
  cases h with
  | passphrase engine params =>
      cases credentials with
      | passphrase text => exact passphraseKeys_spec engine params b text hc
      | keyFile path => exact ⟨cache, rfl, hc⟩
  | keyFile engine =>
      cases credentials with
      | passphrase text => exact ⟨cache, rfl, hc⟩
      | keyFile path => exact ⟨cache, rfl, hc⟩

/-- The text in a bundle, as a function of the handler and its inputs alone. -/
def answer (h : Handler) (files : FileSystem) (b : Bundle) (credentials : Credentials)
    (label : LabelMatch) : Except Error Bytes :=
  match h.refusal? b label with
  | some _ => .error .decryption
  | none =>
    match h.material files b credentials with
    | .error _ => .error .decryption
    | .ok keys => (h.engine.decrypt b keys label).value

theorem decryptWith_spec (h : Handler) (files : FileSystem) (b : Bundle)
    (credentials : Credentials) (label : LabelMatch) {cache : StretchCache} (hc : cache.Sound) :
    ∃ cache' : StretchCache, (h.decryptWith files b credentials label cache).value
        = (h.answer files b credentials label, cache') ∧ cache'.Sound := by
  rw [decryptWith, answer]
  cases h.refusal? b label with
  | some reason => exact ⟨cache, rfl, hc⟩
  | none =>
      obtain ⟨cache', hkeys, hsound⟩ := h.keysFor_spec files b credentials hc
      refine ⟨cache', ?_, hsound⟩
      simp only [hkeys]
      cases h.material files b credentials <;> rfl

theorem value_decrypt (h : Handler) (files : FileSystem) (b : Bundle) (credentials : Credentials)
    (label : LabelMatch) :
    (h.decrypt files b credentials label).value = h.answer files b credentials label := by
  obtain ⟨cache', hvalue, -⟩ :=
    h.decryptWith_spec files b credentials label StretchCache.sound_empty
  show (h.decryptWith files b credentials label .empty).value.1 = _
  rw [hvalue]

/-- **A sound cache changes no answer**: a handler decrypts as it does with a cache of its
own, and leaves a sound cache behind. -/
theorem decryptWith_eq (h : Handler) (files : FileSystem) (b : Bundle) (credentials : Credentials)
    (label : LabelMatch) {cache : StretchCache} (hc : cache.Sound) :
    ∃ cache' : StretchCache, (h.decryptWith files b credentials label cache).value
        = ((h.decrypt files b credentials label).value, cache') ∧ cache'.Sound := by
  rw [value_decrypt]
  exact h.decryptWith_spec files b credentials label hc

end Handler

end AgileSeal
