import AgileSeal.Proofs.Search.Reconfigured
import AgileSeal.Proofs.Service.Migration

set_option autoImplicit false

/-! # Who can open what

What a bundle that was opened says about the credentials. A key file belongs to one suite
(`KeyFile.suiteId_of_load`), so only one candidate finds keys in it, whatever the label and whatever
has been stretched (`Search.load_of_attempt`), and it finds both private keys there. A passphrase
opens only with suites that stretch it, and stretching refuses empty passphrases and short salts.
The two kinds of credentials never take each other's place (`Service.decrypt_openers`).
-/

namespace AgileSeal

/-! ## Handlers -/

/-- Whatever is revealed takes both private keys. -/
theorem Engine.hasPrivateKeys_of_reveal {e : Engine} {b : Bundle} {keys : KeyMaterial}
    {label : LabelMatch} {plaintext : Bytes} (h : e.reveal b keys label = .ok plaintext) :
    keys.hasPrivateKeys = true := by
  obtain ⟨-, -, -, key, -, hkey, -, -⟩ := reveal_eq_ok_iff.mp h
  obtain ⟨secrets, -, -, -, hsecrets, -, -, -, -⟩ := keyOf_eq_ok_iff.mp hkey
  rw [privateKeys] at hsecrets
  rw [KeyMaterial.hasPrivateKeys]
  split at hsecrets
  · rename_i classical pqc hclassical hpqc
    rw [hclassical, hpqc]
    rfl
  · cases hsecrets

namespace Handler

variable {h : Handler} {files : FileSystem} {b : Bundle} {label : LabelMatch} {plaintext : Bytes}

/-- A handler that answers for a key file keeps its keys in files and finds both private keys
there. -/
theorem opens_of_keyFile {path : String}
    (hanswer : h.answer files b (.keyFile path) label = .ok plaintext) :
    (∃ engine, h = .keyFile engine) ∧ ∃ keys, KeyFile.load files path h.suite = .ok keys ∧
      keys.hasPrivateKeys = true := by
  obtain ⟨-, keys, hkeys, hreveal⟩ := answer_eq_ok_iff.mp hanswer
  cases h with
  | passphrase engine params => cases hkeys
  | keyFile engine =>
      exact ⟨⟨engine, rfl⟩, keys, mapError_eq_ok_iff.mp hkeys,
        Engine.hasPrivateKeys_of_reveal hreveal⟩

/-- A handler that answers for a passphrase stretches it, and neither is the passphrase empty nor
the salt of the bundle short. -/
theorem opens_of_passphrase {text : String}
    (hanswer : h.answer files b (.passphrase text) label = .ok plaintext) :
    (∃ engine params, h = .passphrase engine params) ∧ text ≠ "" ∧
      ∃ salt, b.passphraseSalt = some salt ∧ 16 ≤ salt.length := by
  obtain ⟨-, keys, hkeys, -⟩ := answer_eq_ok_iff.mp hanswer
  cases h with
  | keyFile engine => cases hkeys
  | passphrase engine params =>
      obtain ⟨salt, stretched, hsalt, hstretch, -⟩ := passphraseMaterial_eq_ok_iff.mp hkeys
      obtain ⟨htext, hlength, -, -⟩ := stretchPassphrase_eq_ok_iff.mp hstretch
      exact ⟨⟨engine, params, rfl⟩, htext, salt, hsalt, hlength⟩

/-- Whoever decrypts with a key file has loaded its keys, whatever has been stretched. -/
theorem load_of_decryptWith {path : String} {cache : StretchCache}
    (hopens : (h.decryptWith files b (.keyFile path) label cache).value.1 = .ok plaintext) :
    ∃ keys, KeyFile.load files path h.suite = .ok keys := by
  rw [decryptWith] at hopens
  cases hrefusal : h.refusal? b label with
  | some reason =>
      rw [hrefusal] at hopens
      cases hopens
  | none =>
      rw [hrefusal] at hopens
      cases h with
      | passphrase engine params => cases hopens
      | keyFile engine =>
          have hkeys : (Handler.keyFile engine).keysFor files b (.keyFile path) cache
              = ((KeyFile.load files path engine.suite).mapError Error.message, cache) := rfl
          rw [hkeys] at hopens
          cases hload : KeyFile.load files path engine.suite with
          | error e =>
              rw [hload] at hopens
              cases hopens
          | ok keys => exact ⟨keys, hload⟩

end Handler

/-- An attempt that succeeds with a key file has loaded its keys. -/
theorem Search.load_of_attempt {h : Handler} {files : FileSystem} {blob plaintext : Bytes}
    {path : String} {label : LabelMatch} {cache : StretchCache}
    (hopens : (attempt h files blob (.keyFile path) label cache).value.1 = .ok plaintext) :
    ∃ keys, KeyFile.load files path h.suite = .ok keys := by
  rw [attempt] at hopens
  cases hparse : h.parse blob with
  | error e =>
      rw [hparse] at hopens
      cases hopens
  | ok b =>
      rw [hparse] at hopens
      exact Handler.load_of_decryptWith (mapError_eq_ok_iff.mp hopens)

/-- How a handler finds its keys. -/
def Handler.mode : Handler → KeyMode
  | .passphrase _ _ => .passphrase
  | .keyFile _ => .keyFile

/-- The candidates of a configuration find their keys as their suites say. -/
theorem Config.mode_of_mem {c : Config} {h : Handler} (hmem : h ∈ c.candidates) :
    h.suite.mode = h.mode := by
  rw [candidates_eq] at hmem
  obtain ⟨suite, -, rfl⟩ := List.mem_map.mp hmem
  rw [Handler.suite_new, Handler.new]
  cases hmode : suite.mode <;> rfl

/-! ## Services -/

namespace Service

variable {σ : Type}

/-- **Who can open what.** If a service decrypts a blob with a key file, the suite that is named is
that of a candidate which keeps its keys in files, the file belongs to this suite and holds both
private keys, and no attempt of another candidate succeeds with it, whatever has to match and
whatever has been stretched. If it decrypts with a passphrase, the suite is that of a candidate
which stretches passphrases, the passphrase is not empty and the bundle has a salt of at least 16
bytes. -/
theorem decrypt_openers {c : Config} {w : World σ} (hw : Registry.Built c w.registry)
    (blob : Bytes) :
    (∀ path payload, (decrypt blob (.keyFile path) w).value.1 = .ok payload →
      ∃ handler ∈ w.candidates, handler.suiteId = payload.suiteId ∧
        handler.suite.mode = .keyFile ∧
        (∃ f keys, KeyFile.StandsAt f w.files path ∧ f.suiteId = payload.suiteId ∧
          KeyFile.load w.files path handler.suite = .ok keys ∧ keys.hasPrivateKeys = true) ∧
        ∀ other ∈ w.candidates, other ≠ handler → ∀ label cache plaintext,
          (Search.attempt other w.files blob (.keyFile path) label cache).value.1
            ≠ .ok plaintext) ∧
    ∀ text payload, (decrypt blob (.passphrase text) w).value.1 = .ok payload →
      ∃ handler ∈ w.candidates, handler.suiteId = payload.suiteId ∧
        handler.suite.mode = .passphrase ∧ text ≠ "" ∧
        ∃ b salt, Bundle.decode blob = .ok b ∧ b.passphraseSalt = some salt ∧
          16 ≤ salt.length := by
  have hmode : ∀ handler ∈ w.candidates, handler.suite.mode = handler.mode := by
    rw [candidates_eq hw.follows]
    exact fun _ => Config.mode_of_mem
  constructor
  · intro path payload h
    obtain ⟨handler, hmem, hid, b, label, -, hanswer⟩ := exists_answer_of_decrypt hw.follows h
    obtain ⟨⟨engine, rfl⟩, keys, hload, hprivate⟩ := Handler.opens_of_keyFile hanswer
    obtain ⟨f, hstands, hkeys⟩ := KeyFile.load_eq_ok_iff.mp hload
    have hsuite : f.suiteId = payload.suiteId := (KeyFile.fits_of_material hkeys).1.trans hid
    refine ⟨_, hmem, hid, hmode _ hmem, ⟨f, keys, hstands, hsuite, hload, hprivate⟩, ?_⟩
    intro other hother hne label' cache plaintext hopens
    obtain ⟨keys', hload'⟩ := Search.load_of_attempt hopens
    -- the file names the suite, and a candidate is known by the id of its suite
    exact hne (Search.eq_of_suiteId (nodup_candidates hw.follows) hother hmem
      (KeyFile.suiteId_of_load hload' hload))
  · intro text payload h
    obtain ⟨handler, hmem, hid, b, label, hparse, hanswer⟩ := exists_answer_of_decrypt hw.follows h
    obtain ⟨⟨engine, params, rfl⟩, htext, salt, hsalt, hlength⟩ :=
      Handler.opens_of_passphrase hanswer
    obtain ⟨hdecode, -⟩ := Handler.parse_eq_ok_iff.mp hparse
    exact ⟨_, hmem, hid, hmode _ hmem, htext, b, salt, hdecode, hsalt, hlength⟩

/-- A service opens one bundle with a key file and another one with a passphrase. -/
theorem exists_opened_samples : ∃ (w : World Unit) (filed typed : Bytes),
    Registry.Built sampleReader w.registry ∧
      (decrypt filed (.keyFile "keys.json") w).value.1 = .ok ⟨sampleText, "archive"⟩ ∧
      (decrypt typed (.passphrase "pw") w).value.1 = .ok ⟨sampleText, "current"⟩ := by
  obtain ⟨m, hruns, hconfig, hbuilt, hcredentials⟩ := exists_migration_sample
  obtain ⟨suite, hactive, hopens, -, -⟩ := hruns.opens (τ := Unit) (Nat.le_refl 1)
  have hsuite : suite = sampleSuite "archive" .keyFile := by
    rw [Migration.suite?, hconfig] at hactive
    exact (Option.some.inj hactive).symm
  rw [hcredentials, hsuite] at hopens
  have hfiled := hopens sampleReader (m.world 1) hbuilt rfl (by decide) fun _ _ => rfl
  have hwriter : (sampleWriter "current").suite? (sampleWriter "current").active
      = some (sampleSuite "current" .passphrase) := rfl
  have hsame : sampleReader.suite? (sampleSuite "current" .passphrase).id
      = some (sampleSuite "current" .passphrase) := rfl
  obtain ⟨wa, typed, ha, hrandom, htyped, -⟩ := exists_encrypt_sample rfl hwriter rfl
  have hagree : Credentials.Agree (.passphrase "pw") (sampleSuite "current" .passphrase)
      (sampleWriter "current").params wa.files wa.random := by
    rw [hrandom]
    exact kemsAgree_sample "current"
  have hfiles : Credentials.Unchanged (.passphrase "pw") wa.files (m.world 1).files := by
    intro path hpath
    cases hpath
  exact ⟨m.world 1, m.blob 1, typed, hbuilt, hfiled, decrypt_of_encrypt_listed ha.follows
    hbuilt.follows hwriter hsame (by decide) hagree hfiles htyped⟩

/-- Both kinds of credentials open a bundle of the sample reader, each with the suite of its kind. -/
theorem decrypt_openers_sample : ∃ (w : World Unit) (filed typed : Bytes),
    Registry.Built sampleReader w.registry ∧
      (decrypt filed (.keyFile "keys.json") w).value.1 = .ok ⟨sampleText, "archive"⟩ ∧
      (∃ f, KeyFile.StandsAt f w.files "keys.json" ∧ f.suiteId = "archive") ∧
      (decrypt typed (.passphrase "pw") w).value.1 = .ok ⟨sampleText, "current"⟩ ∧
      ∃ b salt, Bundle.decode typed = .ok b ∧ b.passphraseSalt = some salt ∧ 16 ≤ salt.length := by
  obtain ⟨w, filed, typed, hw, hfiled, htyped⟩ := exists_opened_samples
  obtain ⟨-, -, -, -, ⟨f, -, hstands, hsuite, -⟩, -⟩ := (decrypt_openers hw filed).1 _ _ hfiled
  obtain ⟨-, -, -, -, -, b, salt, hdecode, hsalt, hlength⟩ :=
    (decrypt_openers hw typed).2 _ _ htyped
  exact ⟨w, filed, typed, hw, hfiled, ⟨f, hstands, hsuite⟩, htyped, b, salt, hdecode, hsalt,
    hlength⟩

end Service

end AgileSeal
