import AgileSeal.Proofs.Bytes
import AgileSeal.Proofs.Engine.Opening
import AgileSeal.Proofs.Handler.RoundTrip

set_option autoImplicit false

/-! # Bundles that were tampered with

The tag of a bundle covers header, nonce and ciphertext. The two encapsulated keys and the salt of
the cipher's key are covered only as far as that key depends on them. So a bundle of which one of
these fields was changed is rejected unless the change goes unnoticed by the key
(`Engine.Unnoticed`) or the cipher gives one tag to two inputs (`Engine.Collides`).

There are changes of the first kind for every bundle: Diffie-Hellman ignores the top bit of a
coordinate (`Engine.keyOf_withTopBitFlipped`), and keyed hashing fills up short keys with zeros, so
a zero after a short salt makes no difference (`Engine.keyOf_withSaltExtended`). Both bundles are
decrypted to the original text (`Engine.decrypt_tampered`).
-/

namespace AgileSeal

/-! ## Changes -/

namespace Bundle

/-- The bundle with another value in one of the fields that the cipher and its key depend on. -/
inductive Tampered (b : Bundle) : Bundle → Prop
  | ephemeralKey (value : Option Bytes) (h : value ≠ b.ephemeralKey) :
      Tampered b { b with ephemeralKey := value }
  | encapsulatedKey (value : Bytes) (h : value ≠ b.encapsulatedKey) :
      Tampered b { b with encapsulatedKey := value }
  | nonce (value : Bytes) (h : value ≠ b.nonce) : Tampered b { b with nonce := value }
  | ciphertext (value : Bytes) (h : value ≠ b.ciphertext) :
      Tampered b { b with ciphertext := value }
  | tag (value : Bytes) (h : value ≠ b.tag) : Tampered b { b with tag := value }
  | kdfSalt (value : Option Bytes) (h : value ≠ b.kdfSalt) : Tampered b { b with kdfSalt := value }

theorem Tampered.toHeader_eq {b b' : Bundle} (h : b.Tampered b') : b'.toHeader = b.toHeader := by
  cases h <;> rfl

/-- The top bit of a coordinate flipped. -/
def flipTopBit (point : Bytes) : Bytes := point.take 31 ++ (point.drop 31).map (· ^^^ 0x80)

def withTopBitFlipped (b : Bundle) : Bundle :=
  { b with ephemeralKey := b.ephemeralKey.map flipTopBit }

/-- The bundle with a zero after its salt. -/
def withSaltExtended (b : Bundle) : Bundle :=
  { b with kdfSalt := some (b.kdfSalt.getD [] ++ [0]) }

theorem length_flipTopBit (point : Bytes) : (flipTopBit point).length = point.length := by
  rw [flipTopBit, List.length_append, List.length_map, List.length_take, List.length_drop]
  omega

/-- A coordinate without and with its last byte. -/
theorem exists_last {point : Bytes} (h : point.length = 32) :
    ∃ front last, front.length = 31 ∧ point = front ++ [last] ∧
      flipTopBit point = front ++ [last ^^^ 0x80] := by
  have hdrop : (point.drop 31).length = 1 := by rw [List.length_drop, h]
  obtain ⟨last, hlast⟩ := List.length_eq_one_iff.mp hdrop
  refine ⟨point.take 31, last, by rw [List.length_take, h]; rfl, ?_, ?_⟩
  · rw [← hlast, List.take_append_drop]
  · rw [flipTopBit, hlast]
    rfl

theorem flipTopBit_ne {point : Bytes} (h : point.length = 32) : flipTopBit point ≠ point := by
  obtain ⟨front, last, -, hpoint, hflip⟩ := exists_last h
  intro heq
  rw [hflip, hpoint] at heq
  have hlast : last ^^^ 0x80 = last := (List.cons.inj (List.append_cancel_left heq)).1
  have hzero : last ^^^ (last ^^^ 0x80) = last ^^^ last := by rw [hlast]
  rw [← UInt8.xor_assoc, UInt8.xor_self, UInt8.zero_xor] at hzero
  exact absurd hzero (by decide)

theorem tampered_withTopBitFlipped {b : Bundle} {point : Bytes}
    (hpoint : b.ephemeralKey = some point) (h : point.length = 32) :
    b.Tampered b.withTopBitFlipped := by
  refine .ephemeralKey _ ?_
  rw [hpoint]
  exact fun heq => flipTopBit_ne h (Option.some.inj heq)

theorem tampered_withSaltExtended (b : Bundle) : b.Tampered b.withSaltExtended := by
  refine .kdfSalt _ ?_
  intro heq
  have hlength := congrArg (fun salt => (salt.getD []).length) heq
  simp at hlength

end Bundle

/-! ## Changes that a key does not depend on -/

/-- The number that a coordinate stands for has only the low bits of the last byte. -/
theorem X25519.coordinate_append {front : Bytes} (h : front.length = 31) (last : UInt8) :
    coordinate (front ++ [last])
      = Fin.ofNat prime (Bytes.toNatLE front + 256 ^ 31 * (last.toNat % 128)) := by
  have hfront : Bytes.toNatLE front < 256 ^ 31 := h ▸ Bytes.toNatLE_lt front
  have hlimit : 2 * topScalarBit = 256 ^ 31 * 128 := by decide
  have hnumber : Bytes.toNatLE (front ++ [last])
      = Bytes.toNatLE front + 256 ^ 31 * last.toNat := by
    rw [Bytes.toNatLE_append, h]
    rfl
  rw [coordinate, hnumber, hlimit, Nat.mod_mul, Nat.add_mul_mod_self_left,
    Nat.mod_eq_of_lt hfront, Nat.add_mul_div_left _ _ (by decide), Nat.div_eq_of_lt hfront,
    Nat.zero_add]

/-- The top bit of a coordinate is ignored. -/
theorem X25519.coordinate_flipTopBit {point : Bytes} (h : point.length = 32) :
    coordinate (Bundle.flipTopBit point) = coordinate point := by
  obtain ⟨front, last, hfront, hpoint, hflip⟩ := Bundle.exists_last h
  have hlow : (last ^^^ 0x80).toNat % 128 = last.toNat % 128 := by
    rw [UInt8.toNat_xor]
    exact (Nat.xor_mod_two_pow (n := 7)).trans (Nat.xor_zero _)
  rw [hflip, coordinate_append hfront, hlow, ← coordinate_append hfront, ← hpoint]

theorem X25519.multiply_flipTopBit (secret : Bytes) {point : Bytes} (h : point.length = 32) :
    multiply secret (Bundle.flipTopBit point) = multiply secret point := by
  rw [multiply, multiply, coordinate_flipTopBit h]

theorem ClassicalKem.encapsulatedLength_eq (k : ClassicalKem) : k.kem.encapsulatedLength = 32 := by
  cases k with
  | x25519 => rfl

theorem ClassicalKem.decapsulate_flipTopBit (k : ClassicalKem) (secret : Bytes) {point : Bytes}
    (h : point.length = 32) :
    k.kem.decapsulate secret (Bundle.flipTopBit point) = k.kem.decapsulate secret point := by
  cases k with
  | x25519 =>
      rw [Kem.decapsulate, Kem.decapsulate, Bundle.length_flipTopBit]
      show (if _ then Kem.contributory (X25519.multiply _ _) _ else _) = _
      rw [X25519.multiply_flipTopBit secret h]
      rfl

/-- Zeros fill up a short key, so a zero after it makes no difference. -/
theorem HashFunction.blockKey_append_zero (hash : HashFunction) {key : Bytes}
    (h : key.length < hash.blockLength) : hash.blockKey (key ++ [0]) = hash.blockKey key := by
  have hlong : (key ++ [0]).length ≤ hash.blockLength := by
    rw [List.length_append, List.length_singleton]
    omega
  have hzeros : hash.blockLength - key.length = hash.blockLength - (key ++ [0]).length + 1 := by
    rw [List.length_append, List.length_singleton] at hlong ⊢
    omega
  rw [blockKey, blockKey, if_pos hlong, if_pos (Nat.le_of_lt h), hzeros, List.append_assoc]
  rfl

theorem KeyDerivation.derive_append_zero (k : KeyDerivation) (material context : Bytes)
    (length : Nat) {salt : Option Bytes} (h : (salt.getD []).length < k.hash.blockLength) :
    k.derive material (some (salt.getD [] ++ [0])) context length
      = k.derive material salt context length := by
  rw [derive, derive, Option.getD_some, HashFunction.hkdf, HashFunction.hkdf, HashFunction.hmac,
    HashFunction.hmac, HashFunction.blockKey_append_zero _ h]

namespace Engine

variable {e : Engine} {keys : KeyMaterial} {b b' : Bundle}

theorem keyOf_withTopBitFlipped (e : Engine) (keys : KeyMaterial) {point : Bytes}
    (hpoint : b.ephemeralKey = some point) (h : point.length = 32) :
    e.keyOf b.withTopBitFlipped keys = e.keyOf b keys := by
  have hflipped : ephemeralKey b.withTopBitFlipped = .ok (Bundle.flipTopBit point) := by
    have hkey : b.withTopBitFlipped.ephemeralKey = some (Bundle.flipTopBit point) :=
      congrArg (Option.map Bundle.flipTopBit) hpoint
    rw [ephemeralKey, hkey]
  have hkey : ephemeralKey b = .ok point := by rw [ephemeralKey, hpoint]
  rw [keyOf, keyOf, hflipped, hkey]
  refine congrArg _ (funext fun secrets => ?_)
  show (e.suite.classicalKem.kem.decapsulate secrets.1 (Bundle.flipTopBit point) >>= _) = _
  rw [ClassicalKem.decapsulate_flipTopBit _ _ h]
  rfl

theorem keyOf_withSaltExtended (e : Engine) (keys : KeyMaterial)
    (h : (b.kdfSalt.getD []).length < e.suite.kdf.hash.blockLength) :
    e.keyOf b.withSaltExtended keys = e.keyOf b keys := by
  have hkey (classicalSecret pqcSecret : Bytes) :
      e.cipherKey classicalSecret pqcSecret (some (b.kdfSalt.getD [] ++ [0]))
        = e.cipherKey classicalSecret pqcSecret b.kdfSalt :=
    KeyDerivation.derive_append_zero _ _ _ _ h
  show (do
    let secrets ← privateKeys keys
    let ephemeral ← ephemeralKey b
    let classicalSecret ← e.suite.classicalKem.kem.decapsulate secrets.1 ephemeral
    let pqcSecret ← e.suite.pqcKem.kem.decapsulate secrets.2 b.encapsulatedKey
    e.cipherKey classicalSecret pqcSecret (some (b.kdfSalt.getD [] ++ [0]))) = _
  simp only [hkey]
  rfl

/-! ## What becomes of a changed bundle -/

/-- A change that the cipher and its key do not notice. -/
def Unnoticed (e : Engine) (keys : KeyMaterial) (b b' : Bundle) : Prop :=
  b'.nonce = b.nonce ∧ b'.ciphertext = b.ciphertext ∧ e.keyOf b' keys = e.keyOf b keys

/-- The cipher gives the same tag to what it decrypts for two bundles, although key, nonce and
ciphertext are not the same. -/
def Collides (e : Engine) (keys : KeyMaterial) (b b' : Bundle) : Prop :=
  ∃ key key' associated, e.keyOf b keys = .ok key ∧ e.keyOf b' keys = .ok key' ∧
    b.associatedData = .ok associated ∧
    (key', b'.nonce, b'.ciphertext) ≠ (key, b.nonce, b.ciphertext) ∧
    e.suite.symmetric.cipher.mayDecrypt b'.ciphertext.length associated.length = true ∧
    e.suite.symmetric.cipher.authenticate key' b'.nonce associated b'.ciphertext
      = e.suite.symmetric.cipher.authenticate key b.nonce associated b.ciphertext

/-- The tag of a bundle that is decrypted is the one that the cipher computes. -/
theorem exists_authenticate_of_reveal {label : LabelMatch} {plaintext : Bytes}
    (hopen : e.reveal b keys label = .ok plaintext) :
    ∃ key associated, e.keyOf b keys = .ok key ∧ b.associatedData = .ok associated ∧
      e.suite.symmetric.cipher.mayDecrypt b.ciphertext.length associated.length = true ∧
      e.suite.symmetric.cipher.authenticate key b.nonce associated b.ciphertext = b.tag := by
  obtain ⟨-, -, -, key, associated, hkey, hassociated, hcipher⟩ := reveal_eq_ok_iff.mp hopen
  obtain ⟨-, -, hcipher⟩ := SymmetricCipher.decrypt_eq_ok_iff.mp hcipher
  obtain ⟨hmay, hauth, -⟩ := DetachedCipher.decrypt_eq_some_iff.mp hcipher
  exact ⟨key, associated, hkey, hassociated, hmay, hauth⟩

/-- A change that goes unnoticed leaves the text as it is. -/
theorem reveal_of_unnoticed {label : LabelMatch} {plaintext : Bytes}
    (hopen : e.reveal b keys label = .ok plaintext) (hheader : b'.toHeader = b.toHeader)
    (hform : b'.defect? e.suite = none) (htag : b'.tag = b.tag) (h : e.Unnoticed keys b b') :
    e.reveal b' keys label = .ok plaintext := by
  obtain ⟨hnonce, hciphertext, hsame⟩ := h
  obtain ⟨hlabel, -, hkeys, key, associated, hkey, hassociated, hcipher⟩ :=
    reveal_eq_ok_iff.mp hopen
  refine reveal_eq_ok_iff.mpr ⟨?_, hform, hkeys, key, associated, ?_, ?_, ?_⟩
  · rwa [hheader]
  · rwa [hsame]
  · rwa [Bundle.associatedData, hheader]
  · rwa [hnonce, hciphertext, htag]

/-- A bundle with the same tag is decrypted if the cipher computes that tag for it, too. -/
theorem reveal_of_collides {label : LabelMatch} {plaintext : Bytes}
    (hopen : e.reveal b keys label = .ok plaintext) (hheader : b'.toHeader = b.toHeader)
    (hform : b'.defect? e.suite = none) (htag : b'.tag = b.tag) (h : e.Collides keys b b') :
    ∃ plaintext', e.reveal b' keys label = .ok plaintext' := by
  obtain ⟨key, key', associated, hkey, hkey', hassociated, -, hmay, hauth⟩ := h
  obtain ⟨hlabel, -, hkeys, -⟩ := reveal_eq_ok_iff.mp hopen
  obtain ⟨key₀, associated₀, hkey₀, hassociated₀, -, hgenuine⟩ :=
    exists_authenticate_of_reveal hopen
  cases hkey.symm.trans hkey₀
  cases hassociated.symm.trans hassociated₀
  obtain ⟨-, hfields, -⟩ := Bundle.defect?_eq_none_iff.mp hform
  obtain ⟨-, hnonce', htagLength', -⟩ := Bundle.fieldDefect?_eq_none_iff.mp hfields
  refine ⟨_, reveal_eq_ok_iff.mpr ⟨?_, hform, hkeys, key', associated, hkey', ?_,
    SymmetricCipher.decrypt_eq_ok_iff.mpr ⟨⟨length_of_keyOf hkey', hnonce'⟩, htagLength',
      DetachedCipher.decrypt_eq_some_iff.mpr ⟨hmay, ?_, rfl⟩⟩⟩⟩
  · rwa [hheader]
  · rwa [Bundle.associatedData, hheader]
  · rw [hauth, htag, hgenuine]

/-- Whatever else is decrypted in place of a bundle goes unnoticed or collides with it, unless
it has a tag of its own. -/
theorem unnoticed_or_collides {label : LabelMatch} {plaintext plaintext' : Bytes}
    (hopen : e.reveal b keys label = .ok plaintext) (hheader : b'.toHeader = b.toHeader)
    (htag : b'.tag = b.tag) (hopen' : e.reveal b' keys label = .ok plaintext') :
    e.Unnoticed keys b b' ∨ e.Collides keys b b' := by
  obtain ⟨key, associated, hkey, hassociated, -, hauth⟩ := exists_authenticate_of_reveal hopen
  obtain ⟨key', associated', hkey', hassociated', hmay', hauth'⟩ :=
    exists_authenticate_of_reveal hopen'
  rw [Bundle.associatedData, hheader] at hassociated'
  cases hassociated.symm.trans hassociated'
  by_cases hsame : (key', b'.nonce, b'.ciphertext) = (key, b.nonce, b.ciphertext)
  · obtain ⟨hkeySame, hrest⟩ := Prod.mk.inj hsame
    obtain ⟨hnonce, hciphertext⟩ := Prod.mk.inj hrest
    exact .inl ⟨hnonce, hciphertext, by rw [hkey, hkey', hkeySame]⟩
  · exact .inr ⟨key, key', associated, hkey, hkey', hassociated, hsame, hmay',
      by rw [hauth, hauth', htag]⟩

/-- A tag that was changed does not fit any more. -/
theorem tag_eq_of_reveal {label : LabelMatch} {plaintext plaintext' : Bytes}
    (hopen : e.reveal b keys label = .ok plaintext) (htampered : b.Tampered b')
    (hopen' : e.reveal b' keys label = .ok plaintext') : b'.tag = b.tag := by
  cases htampered with
  | tag value hvalue =>
      -- key, nonce, ciphertext and header are those of `b`, which determine the tag
      obtain ⟨key, associated, hkey, hassociated, -, hauth⟩ := exists_authenticate_of_reveal hopen
      obtain ⟨key', associated', hkey', hassociated', -, hauth'⟩ :=
        exists_authenticate_of_reveal hopen'
      cases (show e.keyOf b keys = _ from hkey').symm.trans hkey
      cases hassociated'.symm.trans hassociated
      exact hauth'.symm.trans hauth
  | ephemeralKey value hvalue => rfl
  | encapsulatedKey value hvalue => rfl
  | nonce value hvalue => rfl
  | ciphertext value hvalue => rfl
  | kdfSalt value hvalue => rfl

/-- A bundle with one of its fields changed is decrypted exactly if it has the form of the suite
and its own tag, and the change goes unnoticed or collides. -/
theorem exists_reveal_tampered_iff {label : LabelMatch} {plaintext : Bytes}
    (hopen : e.reveal b keys label = .ok plaintext) (htampered : b.Tampered b') :
    (∃ plaintext', e.reveal b' keys label = .ok plaintext') ↔
      b'.defect? e.suite = none ∧ b'.tag = b.tag ∧
        (e.Unnoticed keys b b' ∨ e.Collides keys b b') := by
  constructor
  · rintro ⟨plaintext', hopen'⟩
    have htag := tag_eq_of_reveal hopen htampered hopen'
    exact ⟨(reveal_eq_ok_iff.mp hopen').2.1, htag,
      unnoticed_or_collides hopen htampered.toHeader_eq htag hopen'⟩
  · rintro ⟨hform, htag, hunnoticed | hcollides⟩
    · exact ⟨plaintext, reveal_of_unnoticed hopen htampered.toHeader_eq hform htag hunnoticed⟩
    · exact reveal_of_collides hopen htampered.toHeader_eq hform htag hcollides

/-- The text of a bundle survives a flip of the top bit of its ephemeral key. -/
theorem reveal_withTopBitFlipped {label : LabelMatch} {plaintext : Bytes}
    (hopen : e.reveal b keys label = .ok plaintext) :
    b.Tampered b.withTopBitFlipped ∧ e.reveal b.withTopBitFlipped keys label = .ok plaintext := by
  obtain ⟨-, hform, -⟩ := reveal_eq_ok_iff.mp hopen
  obtain ⟨hpoint, hrest⟩ := Bundle.defect?_eq_none_iff.mp hform
  obtain ⟨point, hpoint, hlength⟩ := Bundle.ephemeralDefect?_eq_none_iff.mp hpoint
  have hlength' : point.length = 32 := hlength.trans e.suite.classicalKem.encapsulatedLength_eq
  have hflipped : Bundle.ephemeralDefect? e.suite b.withTopBitFlipped.ephemeralKey = none := by
    refine Bundle.ephemeralDefect?_eq_none_iff.mpr ⟨Bundle.flipTopBit point, ?_, ?_⟩
    · exact congrArg (Option.map Bundle.flipTopBit) hpoint
    · rw [Bundle.length_flipTopBit, hlength]
  have hform' : b.withTopBitFlipped.defect? e.suite = none :=
    Bundle.defect?_eq_none_iff.mpr ⟨hflipped, hrest⟩
  exact ⟨Bundle.tampered_withTopBitFlipped hpoint hlength', reveal_of_unnoticed hopen rfl hform' rfl
    ⟨rfl, rfl, keyOf_withTopBitFlipped e keys hpoint hlength'⟩⟩

/-- The text of a bundle survives a zero after its salt, if the salt is shorter than a block. -/
theorem reveal_withSaltExtended {label : LabelMatch} {plaintext : Bytes}
    (hopen : e.reveal b keys label = .ok plaintext)
    (hshort : (b.kdfSalt.getD []).length < e.suite.kdf.hash.blockLength) :
    e.reveal b.withSaltExtended keys label = .ok plaintext := by
  obtain ⟨-, hform, -⟩ := reveal_eq_ok_iff.mp hopen
  obtain ⟨hpoint, hfields, hrest⟩ := Bundle.defect?_eq_none_iff.mp hform
  obtain ⟨hencapsulated, hnonce, htag, hciphertext, -⟩ :=
    Bundle.fieldDefect?_eq_none_iff.mp hfields
  have hsalt : some (b.kdfSalt.getD [] ++ [0]) ≠ some [] := by
    rw [ne_eq, Option.some.injEq]
    exact List.append_ne_nil_of_right_ne_nil _ (List.cons_ne_nil _ _)
  have hfields' : Bundle.fieldDefect? e.suite b.withSaltExtended.toBody = none :=
    Bundle.fieldDefect?_eq_none_iff.mpr ⟨hencapsulated, hnonce, htag, hciphertext, hsalt⟩
  have hform' : b.withSaltExtended.defect? e.suite = none :=
    Bundle.defect?_eq_none_iff.mpr ⟨hpoint, hfields', hrest⟩
  exact reveal_of_unnoticed hopen rfl hform' rfl ⟨rfl, rfl, keyOf_withSaltExtended e keys hshort⟩

/-- **Bundles that were tampered with.** A bundle of which one field was changed is rejected
exactly if it has lost the form of the suite or its own tag, or else the cipher's key notices the
change and the cipher does not collide. A change that goes unnoticed leaves the text as it is. Both
a flip of the top bit of the ephemeral key and a zero after a short salt are of this kind, for
every bundle. -/
theorem decrypt_tampered {plaintext : Bytes}
    (hopen : (e.decrypt b keys .exact).value = .ok plaintext) :
    (∀ b', b.Tampered b' →
      ((e.decrypt b' keys .exact).value = .error .decryption ↔
        ¬(b'.defect? e.suite = none ∧ b'.tag = b.tag ∧
          (e.Unnoticed keys b b' ∨ e.Collides keys b b')))) ∧
    (∀ b', b.Tampered b' → b'.defect? e.suite = none → b'.tag = b.tag → e.Unnoticed keys b b' →
      (e.decrypt b' keys .exact).value = .ok plaintext) ∧
    (b.Tampered b.withTopBitFlipped ∧
      (e.decrypt b.withTopBitFlipped keys .exact).value = .ok plaintext) ∧
    ((b.kdfSalt.getD []).length < e.suite.kdf.hash.blockLength →
      b.Tampered b.withSaltExtended ∧
        (e.decrypt b.withSaltExtended keys .exact).value = .ok plaintext) := by
  have hreveal := decrypt_eq_ok_iff.mp hopen
  obtain ⟨hflipped, hsurvives⟩ := reveal_withTopBitFlipped hreveal
  refine ⟨?_, ?_, ⟨hflipped, decrypt_eq_ok_iff.mpr hsurvives⟩, ?_⟩
  · intro b' htampered
    rw [decrypt_eq_error_iff, ← exists_reveal_tampered_iff hreveal htampered, not_exists]
  · intro b' htampered hform htag hunnoticed
    exact decrypt_eq_ok_iff.mpr
      (reveal_of_unnoticed hreveal htampered.toHeader_eq hform htag hunnoticed)
  · intro hshort
    exact ⟨b.tampered_withSaltExtended,
      decrypt_eq_ok_iff.mpr (reveal_withSaltExtended hreveal hshort)⟩

end Engine

/-! ## A sample -/

/-- The engine of the sample. -/
def sampleEngine : Engine := .new (sampleSuite "current" .passphrase) sampleParams

/-- The engine of the sample decrypts a bundle with a short salt. -/
theorem exists_decrypt_sample : ∃ (keys : KeyMaterial) (b : Bundle),
    (sampleEngine.decrypt b keys .exact).value = .ok sampleText ∧
      (b.kdfSalt.getD []).length < sampleEngine.suite.kdf.hash.blockLength := by
  obtain ⟨x⟩ := nonempty_sealed_sample "current" rfl
  have hagree := kemsAgree_sample "current" _ (bind_eq_ok_iff.mpr ⟨_, x.stretch, x.expand⟩)
  have hreveal : sampleEngine.reveal x.bundle x.keys .exact = .ok sampleText :=
    x.run.reveal hagree rfl (x.defect? "current") (.inr rfl)
  have hsalt : (x.bundle.kdfSalt.getD []).length = 16 := RandomStream.length_segment _ _ _
  refine ⟨x.keys, x.bundle, Engine.decrypt_eq_ok_iff.mpr hreveal, ?_⟩
  rw [hsalt]
  decide

namespace Engine

/-- Two changed bundles that are decrypted to the text of the sample. -/
theorem decrypt_tampered_sample : ∃ (keys : KeyMaterial) (b : Bundle),
    (sampleEngine.decrypt b keys .exact).value = .ok sampleText ∧
      (sampleEngine.decrypt b.withTopBitFlipped keys .exact).value = .ok sampleText ∧
      (sampleEngine.decrypt b.withSaltExtended keys .exact).value = .ok sampleText := by
  obtain ⟨keys, b, hopen, hshort⟩ := exists_decrypt_sample
  obtain ⟨-, -, hflipped, hextended⟩ := decrypt_tampered hopen
  exact ⟨keys, b, hopen, hflipped.2, (hextended hshort).2⟩

/-- Not every change of a field is rejected: the top bit of the ephemeral key may be flipped. -/
theorem exists_tampered_decrypted : ¬∀ (e : Engine) (keys : KeyMaterial) (b b' : Bundle)
    (plaintext : Bytes), (e.decrypt b keys .exact).value = .ok plaintext → b.Tampered b' →
      (e.decrypt b' keys .exact).value = .error .decryption := by
  intro hrejected
  obtain ⟨keys, b, hopen, -⟩ := exists_decrypt_sample
  obtain ⟨htampered, hsurvives⟩ := reveal_withTopBitFlipped (decrypt_eq_ok_iff.mp hopen)
  have herror := hrejected sampleEngine keys b _ sampleText hopen htampered
  rw [decrypt_eq_ok_iff.mpr hsurvives] at herror
  cases herror

end Engine

end AgileSeal
