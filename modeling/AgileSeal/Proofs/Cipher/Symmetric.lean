import AgileSeal.Cipher.Symmetric
import AgileSeal.Proofs.Operations
import Mathlib.Algebra.Group.Nat.Defs

set_option autoImplicit false

/-! # Encryption with a detached tag

A cipher looks at the lengths of its inputs before anything else, at the key first
(`SymmetricCipher.checkLengths_eq_error_iff`). With inputs of the right lengths it encrypts every
text of up to 64 GiB (`SymmetricCipher.exists_encrypt`, `SymmetricCipher.mayEncrypt_of_le`), and it
decrypts a text exactly if the tag is the one that it computes (`DetachedCipher.decrypt_eq_some_iff`);
all that goes wrong then is said with the same words (`SymmetricCipher.encrypt_eq_error_iff`,
`SymmetricCipher.decrypt_eq_error_iff`). What is encrypted is decrypted
(`SymmetricCipher.decrypt_of_encrypt`).
-/

namespace AgileSeal

namespace DetachedCipher

/-- A cipher decrypts what is not too long and carries the tag that it computes. -/
theorem decrypt_eq_some_iff {c : DetachedCipher}
    {key nonce ciphertext tag associated plaintext : Bytes} :
    c.decrypt key nonce ciphertext tag associated = some plaintext ↔
      c.mayDecrypt ciphertext.length associated.length = true ∧
        c.authenticate key nonce associated ciphertext = tag ∧
        c.apply key nonce ciphertext = plaintext := by
  rw [decrypt]
  split
  · rename_i hfits
    rw [Bool.and_eq_true, beq_iff_eq] at hfits
    rw [Option.some.injEq]
    exact (and_iff_right hfits.1).symm.trans (and_congr_right fun _ => (and_iff_right hfits.2).symm)
  · rename_i hfits
    rw [Bool.and_eq_true, beq_iff_eq] at hfits
    constructor
    · intro h
      cases h
    · rintro ⟨hmay, hauth, -⟩
      exact absurd ⟨hmay, hauth⟩ hfits

/-- A plaintext is as long as its ciphertext. -/
theorem length_of_decrypt {c : DetachedCipher}
    {key nonce ciphertext tag associated plaintext : Bytes}
    (h : c.decrypt key nonce ciphertext tag associated = some plaintext) :
    plaintext.length = ciphertext.length := by
  obtain ⟨-, -, rfl⟩ := decrypt_eq_some_iff.mp h
  exact c.length_apply key nonce ciphertext

end DetachedCipher

namespace SymmetricCipher

variable {c : SymmetricCipher} {key nonce plaintext ciphertext tag associated : Bytes}
  {reason : PrimitiveError}

/-! ## Lengths -/

theorem checkLengths_eq_ok_iff {c : SymmetricCipher} {key nonce : Bytes} :
    c.checkLengths key nonce = .ok () ↔
      key.length = c.keyLength ∧ nonce.length = c.nonceLength := by
  rw [checkLengths]
  split
  · simp_all
  · split <;> simp_all

/-- A nonce is complained about only next to a key of the right length. -/
theorem checkLengths_eq_error_iff : c.checkLengths key nonce = .error reason ↔
    (key.length ≠ c.keyLength ∧ reason = wrongLength "AEAD key" c.keyLength key.length) ∨
    (key.length = c.keyLength ∧ nonce.length ≠ c.nonceLength ∧
      reason = wrongLength "nonce" c.nonceLength nonce.length) := by
  rw [checkLengths]
  by_cases hkey : key.length = c.keyLength
  · rw [if_neg (not_not_intro hkey)]
    by_cases hnonce : nonce.length = c.nonceLength
    · simp [hkey, hnonce]
    · simp [hkey, hnonce, eq_comm]
  · simp [hkey, eq_comm]

/-- The lengths of keys and nonces are all that is checked. -/
theorem checkLengths_invalid_iff :
    (∃ detail, c.checkLengths key nonce = .error (.invalidInput detail)) ↔
      key.length ≠ c.keyLength ∨ nonce.length ≠ c.nonceLength := by
  constructor
  · rintro ⟨detail, h⟩
    rcases checkLengths_eq_error_iff.mp h with ⟨hkey, -⟩ | ⟨-, hnonce, -⟩
    · exact .inl hkey
    · exact .inr hnonce
  · intro hwrong
    by_cases hkey : key.length = c.keyLength
    · have hnonce := hwrong.resolve_left (not_not_intro hkey)
      exact ⟨_, checkLengths_eq_error_iff.mpr (.inr ⟨hkey, hnonce, rfl⟩)⟩
    · exact ⟨_, checkLengths_eq_error_iff.mpr (.inl ⟨hkey, rfl⟩)⟩

/-! ## Encryption -/

theorem exists_encrypt (c : SymmetricCipher) {key nonce : Bytes}
    (hkey : key.length = c.keyLength) (hnonce : nonce.length = c.nonceLength)
    {plaintext associated : Bytes}
    (hfits : c.cipher.mayEncrypt plaintext.length associated.length = true) :
    ∃ result, c.encrypt key nonce plaintext associated = .ok result := by
  rw [encrypt, checkLengths_eq_ok_iff.mpr ⟨hkey, hnonce⟩, DetachedCipher.encrypt, if_pos hfits]
  exact ⟨_, rfl⟩

/-- Every cipher encrypts texts of up to 64 GiB. -/
theorem mayEncrypt_of_le (c : SymmetricCipher) {textLength associatedLength : Nat}
    (htext : textLength ≤ 2 ^ 36) (hassociated : associatedLength ≤ 2 ^ 36) :
    c.cipher.mayEncrypt textLength associatedLength = true := by
  have hblocks : textLength / 64 < 0xffffffff := by omega
  cases c with
  | chacha20Poly1305 => exact decide_eq_true hblocks
  | xchacha20Poly1305 => exact decide_eq_true hblocks
  | aes256Gcm => exact Bool.and_eq_true_iff.mpr ⟨decide_eq_true htext, decide_eq_true hassociated⟩

/-- What is encrypted is the result of the cipher, on a key and a nonce of its lengths. -/
theorem cipher_of_encrypt {c : SymmetricCipher}
    {key nonce plaintext associated : Bytes} {result : Bytes × Bytes}
    (h : c.encrypt key nonce plaintext associated = .ok result) :
    c.checkLengths key nonce = .ok () ∧
      c.cipher.encrypt key nonce plaintext associated = some result := by
  rw [encrypt, bind_eq_ok_iff] at h
  obtain ⟨⟨⟩, hlengths, h⟩ := h
  cases hc : c.cipher.encrypt key nonce plaintext associated with
  | none =>
      rw [hc] at h
      cases h
  | some found =>
      rw [hc] at h
      cases h
      exact ⟨hlengths, rfl⟩

/-- Encryption fails for a wrong length, or for a text that is too long. -/
theorem encrypt_eq_error_iff : c.encrypt key nonce plaintext associated = .error reason ↔
    c.checkLengths key nonce = .error reason ∨ (c.checkLengths key nonce = .ok () ∧
      c.cipher.encrypt key nonce plaintext associated = none ∧
      reason = .encryption cipherFailure) := by
  rw [encrypt, check_bind_eq_error_iff]
  refine or_congr_right (and_congr_right fun _ => ?_)
  cases c.cipher.encrypt key nonce plaintext associated with
  | some result =>
      constructor
      · intro h
        cases h
      · rintro ⟨h, -⟩
        cases h
  | none =>
      rw [and_iff_right rfl]
      exact throw_eq_error_iff

/-! ## Decryption -/

theorem decrypt_eq_ok_iff {c : SymmetricCipher}
    {key nonce ciphertext tag associated plaintext : Bytes} :
    c.decrypt key nonce ciphertext tag associated = .ok plaintext ↔
      (key.length = c.keyLength ∧ nonce.length = c.nonceLength) ∧ tag.length = c.tagLength ∧
        c.cipher.decrypt key nonce ciphertext tag associated = some plaintext := by
  rw [decrypt, check_bind_eq_ok_iff, checkLengths_eq_ok_iff]
  refine and_congr_right fun _ => ?_
  by_cases htag : tag.length = c.tagLength
  · rw [if_neg (not_not_intro htag), and_iff_right htag]
    cases c.cipher.decrypt key nonce ciphertext tag associated with
    | some text => simp [pure, Except.pure]
    | none => simp [throw, throwThe, MonadExceptOf.throw]
  · rw [if_pos htag]
    constructor
    · intro h
      cases h
    · rintro ⟨h, -⟩
      exact absurd h htag

/-- Decryption fails for a wrong length, of which that of the tag is looked at last, or because the
cipher does not accept the text. -/
theorem decrypt_eq_error_iff : c.decrypt key nonce ciphertext tag associated = .error reason ↔
    c.checkLengths key nonce = .error reason ∨ (c.checkLengths key nonce = .ok () ∧
      ((tag.length ≠ c.tagLength ∧ reason = wrongLength "tag" c.tagLength tag.length) ∨
      (tag.length = c.tagLength ∧
        c.cipher.decrypt key nonce ciphertext tag associated = none ∧
        reason = .decryption cipherFailure))) := by
  rw [decrypt, check_bind_eq_error_iff]
  refine or_congr_right (and_congr_right fun _ => ?_)
  by_cases htag : tag.length = c.tagLength
  · rw [if_neg (not_not_intro htag), or_iff_right fun h => h.1 htag, and_iff_right htag]
    cases c.cipher.decrypt key nonce ciphertext tag associated with
    | some text =>
        constructor
        · intro h
          cases h
        · rintro ⟨h, -⟩
          cases h
    | none =>
        rw [and_iff_right rfl]
        exact throw_eq_error_iff
  · rw [if_pos htag, or_iff_left fun h => htag h.1, and_iff_right htag]
    exact throw_eq_error_iff

/-- A cipher says the same of all inputs of the right lengths that it does not accept. -/
theorem eq_of_decrypt {c : SymmetricCipher}
    {key nonce ciphertext tag associated : Bytes} {reason : PrimitiveError}
    (hkey : key.length = c.keyLength) (hnonce : nonce.length = c.nonceLength)
    (htag : tag.length = c.tagLength)
    (h : c.decrypt key nonce ciphertext tag associated = .error reason) :
    reason = .decryption cipherFailure := by
  have hlengths := checkLengths_eq_ok_iff.mpr ⟨hkey, hnonce⟩
  rcases decrypt_eq_error_iff.mp h with hwrong | ⟨-, ⟨hwrong, -⟩ | ⟨-, -, hreason⟩⟩
  · rw [hlengths] at hwrong
    cases hwrong
  · exact absurd htag hwrong
  · exact hreason

/-- What a cipher encrypts, it decrypts; the ciphertext is as long as the plaintext and the tag
has its length. -/
theorem decrypt_of_encrypt {c : SymmetricCipher}
    {key nonce plaintext associated ciphertext tag : Bytes}
    (h : c.encrypt key nonce plaintext associated = .ok (ciphertext, tag)) :
    c.decrypt key nonce ciphertext tag associated = .ok plaintext ∧
      ciphertext.length = plaintext.length ∧ tag.length = c.tagLength := by
  obtain ⟨hlengths, hc⟩ := cipher_of_encrypt h
  obtain ⟨hcipher, htag⟩ := c.cipher.length_of_encrypt _ _ _ _ _ _ hc
  have hback := c.cipher.decrypt_encrypt _ _ _ _ _ _ hc
  exact ⟨decrypt_eq_ok_iff.mpr ⟨checkLengths_eq_ok_iff.mp hlengths, htag, hback⟩, hcipher, htag⟩

/-- With inputs of the right lengths a cipher finds a text that is as long as the ciphertext, or it
does not accept the ciphertext. -/
theorem decrypt_cases (hkey : key.length = c.keyLength) (hnonce : nonce.length = c.nonceLength)
    (htag : tag.length = c.tagLength) (ciphertext associated : Bytes) :
    (∃ text, c.decrypt key nonce ciphertext tag associated = .ok text ∧
      text.length = ciphertext.length) ∨
    c.decrypt key nonce ciphertext tag associated = .error (.decryption cipherFailure) := by
  cases h : c.decrypt key nonce ciphertext tag associated with
  | ok text =>
      obtain ⟨-, -, hcipher⟩ := decrypt_eq_ok_iff.mp h
      exact .inl ⟨text, rfl, DetachedCipher.length_of_decrypt hcipher⟩
  | error reason => exact .inr (by rw [eq_of_decrypt hkey hnonce htag h])

/-! ## What is said of the input -/

/-- Encryption blames the input for its lengths alone. -/
theorem encrypt_invalid_iff :
    (∃ detail, c.encrypt key nonce plaintext associated = .error (.invalidInput detail)) ↔
      key.length ≠ c.keyLength ∨ nonce.length ≠ c.nonceLength := by
  rw [← checkLengths_invalid_iff]
  refine exists_congr fun detail => ?_
  rw [encrypt_eq_error_iff]
  constructor
  · rintro (h | ⟨-, -, h⟩)
    · exact h
    · cases h
  · exact .inl

/-- Decryption blames the input for its lengths alone. -/
theorem decrypt_invalid_iff :
    (∃ detail, c.decrypt key nonce ciphertext tag associated = .error (.invalidInput detail)) ↔
      key.length ≠ c.keyLength ∨ nonce.length ≠ c.nonceLength ∨ tag.length ≠ c.tagLength := by
  rw [← or_assoc, ← checkLengths_invalid_iff]
  constructor
  · rintro ⟨detail, h⟩
    rcases decrypt_eq_error_iff.mp h with hwrong | ⟨-, ⟨htag, -⟩ | ⟨-, -, hreason⟩⟩
    · exact .inl ⟨detail, hwrong⟩
    · exact .inr htag
    · cases hreason
  · intro hwrong
    by_cases hlengths : ∃ detail, c.checkLengths key nonce = .error (.invalidInput detail)
    · obtain ⟨detail, hdetail⟩ := hlengths
      exact ⟨detail, decrypt_eq_error_iff.mpr (.inl hdetail)⟩
    · -- the tag is looked at, because key and nonce are as they should be
      have htag := hwrong.resolve_left hlengths
      simp only [checkLengths_invalid_iff, not_or, ne_eq, Decidable.not_not] at hlengths
      exact ⟨_, decrypt_eq_error_iff.mpr
        (.inr ⟨checkLengths_eq_ok_iff.mpr hlengths, .inl ⟨htag, rfl⟩⟩)⟩

/-- **Encryption with a detached tag**, for keys, nonces, texts, associated data and tags of any
length. Encryption blames the input exactly if the key has not 32 bytes or the nonce not the bytes
of the cipher, and it names the key first; with right lengths it encrypts every text of up to
64 GiB. What it gives is a ciphertext as long as the plaintext and a tag of 16 bytes, from which the
plaintext is found again. Decryption blames the input exactly if key, nonce or tag has a wrong
length; otherwise it gives a text as long as the ciphertext, or the error of a decryption. -/
theorem encryption_exact (c : SymmetricCipher) (key nonce plaintext associated : Bytes) :
    ((∃ detail, c.encrypt key nonce plaintext associated = .error (.invalidInput detail)) ↔
      key.length ≠ 32 ∨ nonce.length ≠ c.nonceLength) ∧
    (key.length ≠ 32 → c.encrypt key nonce plaintext associated
      = .error (wrongLength "AEAD key" 32 key.length)) ∧
    (key.length = 32 → nonce.length = c.nonceLength → plaintext.length ≤ 2 ^ 36 →
      associated.length ≤ 2 ^ 36 →
        ∃ ciphertext tag, c.encrypt key nonce plaintext associated = .ok (ciphertext, tag)) ∧
    (∀ ciphertext tag, c.encrypt key nonce plaintext associated = .ok (ciphertext, tag) →
      ciphertext.length = plaintext.length ∧ tag.length = 16 ∧
        c.decrypt key nonce ciphertext tag associated = .ok plaintext) ∧
    ∀ ciphertext tag,
      ((∃ detail, c.decrypt key nonce ciphertext tag associated = .error (.invalidInput detail)) ↔
        key.length ≠ 32 ∨ nonce.length ≠ c.nonceLength ∨ tag.length ≠ 16) ∧
      (key.length = 32 → nonce.length = c.nonceLength → tag.length = 16 →
        (∃ text, c.decrypt key nonce ciphertext tag associated = .ok text ∧
          text.length = ciphertext.length) ∨
        c.decrypt key nonce ciphertext tag associated = .error (.decryption cipherFailure)) := by
  refine ⟨encrypt_invalid_iff, fun hkey => ?_, fun hkey hnonce htext hassociated => ?_,
    fun ciphertext tag hsealed => ?_, fun ciphertext tag => ⟨decrypt_invalid_iff, ?_⟩⟩
  · exact encrypt_eq_error_iff.mpr (.inl (checkLengths_eq_error_iff.mpr (.inl ⟨hkey, rfl⟩)))
  · obtain ⟨⟨ciphertext, tag⟩, hsealed⟩ :=
      c.exists_encrypt hkey hnonce (c.mayEncrypt_of_le htext hassociated)
    exact ⟨ciphertext, tag, hsealed⟩
  · obtain ⟨hback, hlength, htag⟩ := decrypt_of_encrypt hsealed
    exact ⟨hlength, htag, hback⟩
  · intro hkey hnonce htag
    exact decrypt_cases hkey hnonce htag ciphertext associated

end SymmetricCipher

end AgileSeal
