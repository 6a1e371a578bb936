import AgileSeal.Bundle.Basic
import AgileSeal.Proofs.Bundle.BodyFormat

set_option autoImplicit false

/-! # The wire format is a bijection

A bundle is written as its header followed by its body. Reading accepts a byte string exactly
when it is what the bundle it reads as is written as, so every bundle that can be written is
read back unchanged and no two byte strings read as the same bundle
(`decode_eq_ok_iff_encode_eq_ok`).

The two directions differ in one place: a body of more than `2 ^ 32` bytes can be read and
cannot be written. The statement is therefore about byte strings whose part behind the header
is no longer than that.
-/

namespace AgileSeal

namespace Header

/-! ## The header -/

/-- The two bytes of a length, most significant first. -/
theorem ofNatBE_toNatBE (high low : UInt8) :
    Bytes.ofNatBE 2 (Bytes.toNatBE [high, low]) = [high, low] := by
  have hl : low.toNat < 256 := low.toNat_lt
  have hh : high.toNat < 256 := high.toNat_lt
  have hval : Bytes.toNatBE [high, low] = high.toNat * 256 + low.toNat := by
    show (0 * 256 + high.toNat) * 256 + low.toNat = _
    omega
  have hlow : UInt8.ofNat (high.toNat * 256 + low.toNat) = low := by
    apply UInt8.toNat_inj.mp
    rw [UInt8.toNat_ofNat']
    omega
  have hhigh : UInt8.ofNat ((high.toNat * 256 + low.toNat) / 256) = high := by
    apply UInt8.toNat_inj.mp
    rw [UInt8.toNat_ofNat']
    omega
  rw [hval]
  show [UInt8.ofNat ((high.toNat * 256 + low.toNat) / 256),
    UInt8.ofNat (high.toNat * 256 + low.toNat)] = _
  rw [hlow, hhigh]

theorem toNatBE_ofNatBE {n : Nat} (h : n < 65536) :
    Bytes.toNatBE [UInt8.ofNat (n / 256), UInt8.ofNat n] = n := by
  show (0 * 256 + (UInt8.ofNat (n / 256)).toNat) * 256 + (UInt8.ofNat n).toNat = n
  rw [UInt8.toNat_ofNat', UInt8.toNat_ofNat']
  omega

/-- A header is written exactly when its id has between 1 and 255 bytes. -/
theorem encode_eq_ok_iff (h : Header) (bytes : Bytes) :
    h.encode = .ok bytes ↔
      (1 ≤ (Text.utf8 h.suiteId).length ∧ (Text.utf8 h.suiteId).length ≤ maxSuiteIdLength) ∧
        bytes = h.identifier.toList ++ [h.version] ++
          Bytes.ofNatBE 2 (Text.utf8 h.suiteId).length ++ Text.utf8 h.suiteId := by
  rw [encode]
  split
  · rename_i hbad
    constructor
    · intro he
      cases he
    · rintro ⟨hlen, -⟩
      omega
  · rename_i hgood
    rw [Except.ok.injEq]
    constructor
    · intro he
      exact ⟨by omega, he.symm⟩
    · intro he
      exact he.2.symm

theorem readId_eq_ok_iff (length : Nat) (tail : Bytes) (h : Header) (rest : Bytes) :
    readId length tail = .ok (h, rest) ↔
      (1 ≤ length ∧ length ≤ maxSuiteIdLength) ∧ h = ofSuite h.suiteId ∧
        (Text.utf8 h.suiteId).length = length ∧ tail = Text.utf8 h.suiteId ++ rest := by
  rw [readId]
  split
  · rename_i hbad
    constructor
    · intro hr
      cases hr
    · rintro ⟨hlen, -⟩
      omega
  · rename_i hgood
    split
    · rename_i hshort
      constructor
      · intro hr
        cases hr
      · rintro ⟨-, -, hlen, rfl⟩
        rw [List.length_append] at hshort
        omega
    · rename_i hlong
      have hcut := List.take_append_drop length tail
      constructor
      · intro hr
        split at hr
        · rename_i id hid
          have hid' := (Text.ofUtf8?_eq_some_iff _ _).mp hid
          cases hr
          refine ⟨by omega, rfl, ?_, ?_⟩
          · show (Text.utf8 id).length = length
            rw [← hid', List.length_take]
            omega
          · show tail = Text.utf8 id ++ tail.drop length
            rw [← hid', hcut]
        · cases hr
      · rintro ⟨-, hh, hlen, rfl⟩
        rw [← hlen, List.take_left, List.drop_left, Text.ofUtf8?_utf8]
        show Except.ok (ofSuite h.suiteId, rest) = _
        rw [← hh]

/-- Reading a header takes exactly what a header of this format and version is written as. -/
theorem read_eq_ok_iff (bytes : Bytes) (h : Header) (rest : Bytes) :
    read bytes = .ok (h, rest) ↔
      h.identifier = formatIdentifier ∧ h.version = formatVersion ∧
        ∃ head, h.encode = .ok head ∧ bytes = head ++ rest := by
  constructor
  · intro hr
    rw [read.eq_def] at hr
    split at hr
    · rename_i a b c d version high low tail
      split at hr
      · cases hr
      · rename_i hid
        split at hr
        · cases hr
        · rename_i hversion
          obtain ⟨hlen, hh, hidlen, rfl⟩ := (readId_eq_ok_iff _ _ _ _).mp hr
          have hid' := Decidable.not_not.mp hid
          have hversion' := Decidable.not_not.mp hversion
          refine ⟨by rw [hh]; rfl, by rw [hh]; rfl,
            [a, b, c, d] ++ [version] ++ [high, low] ++ Text.utf8 h.suiteId, ?_, rfl⟩
          rw [encode_eq_ok_iff, hidlen]
          refine ⟨hlen, ?_⟩
          rw [ofNatBE_toNatBE, hh, hid', hversion']
          rfl
    · cases hr
  · rintro ⟨hid, hversion, head, he, rfl⟩
    obtain ⟨hlen, rfl⟩ := (encode_eq_ok_iff _ _).mp he
    have hmax : (Text.utf8 h.suiteId).length < 65536 := by
      have : maxSuiteIdLength = 255 := rfl
      omega
    have hh : h = ofSuite h.suiteId := by
      cases h
      cases hid
      cases hversion
      rfl
    rw [hid, hversion, List.append_assoc]
    show (if [0x41, 0x47, 0x4c, 0x43] ≠ formatIdentifier.toList then .error .unknownIdentifier
      else if formatVersion ≠ formatVersion then .error (.unsupportedVersion formatVersion)
      else readId (Bytes.toNatBE [UInt8.ofNat ((Text.utf8 h.suiteId).length / 256),
        UInt8.ofNat (Text.utf8 h.suiteId).length]) (Text.utf8 h.suiteId ++ rest)) = _
    rw [if_neg (by decide), if_neg (by decide), readId_eq_ok_iff, toNatBE_ofNatBE hmax]
    exact ⟨hlen, hh, rfl, rfl⟩

/-- Headers are short. -/
theorem length_encode_le {h : Header} {bytes : Bytes} (hbytes : h.encode = .ok bytes) :
    bytes.length ≤ fixedLength + maxSuiteIdLength := by
  obtain ⟨⟨-, hid⟩, rfl⟩ := (encode_eq_ok_iff _ _).mp hbytes
  simp only [List.length_append, List.length_singleton, Vector.length_toList,
    Bytes.length_ofNatBE]
  exact Nat.add_le_add_left hid 7

theorem length_le_of_read {bytes : Bytes} {h : Header} {rest : Bytes}
    (hr : read bytes = .ok (h, rest)) : rest.length ≤ bytes.length := by
  obtain ⟨-, -, head, -, rfl⟩ := (read_eq_ok_iff _ _ _).mp hr
  rw [List.length_append]
  omega

end Header

namespace Bundle

/-! ## The bundle -/

/-- A bundle is written as its header and its body, unless one of them is too long. -/
theorem encode_eq_ok_iff (b : Bundle) (bytes : Bytes) :
    b.encode = .ok bytes ↔ ∃ head, b.toHeader.encode = .ok head ∧
      b.toBody.encode.length ≤ Body.maxLength ∧ bytes = head ++ b.toBody.encode := by
  rw [encode]
  split
  · rename_i e he
    constructor
    · intro h
      cases h
    · rintro ⟨head, hhead, -⟩
      rw [hhead] at he
      cases he
  · rename_i head hhead
    constructor
    · intro h
      dsimp only at h
      split at h
      · cases h
      · rename_i hlen
        cases h
        exact ⟨head, hhead, by omega, rfl⟩
    · rintro ⟨head', hhead', hlen, rfl⟩
      rw [hhead'] at hhead
      cases hhead
      exact if_neg (by omega)

/-- A byte string reads as a bundle when its header and what follows it do. -/
theorem decode_eq_ok_iff (bytes : Bytes) (b : Bundle) :
    decode bytes = .ok b ↔ ∃ rest, Header.read bytes = .ok (b.toHeader, rest) ∧
      Body.decode rest = .ok b.toBody := by
  rw [decode]
  constructor
  · intro h
    split at h
    · cases h
    · rename_i header rest hr
      split at h
      · cases h
      · rename_i body hb
        cases h
        exact ⟨rest, hr, hb⟩
  · rintro ⟨rest, hr, hb⟩
    simp only [hr, hb]

/-- Whatever is wrong with a byte string, it is reported as a malformed bundle. -/
theorem malformedBundle_of_decode {bytes : Bytes} {e : Error} (h : decode bytes = .error e) :
    ∃ detail, e = .malformedBundle detail := by
  rw [decode] at h
  split at h
  · cases h
    exact ⟨_, rfl⟩
  · split at h
    · cases h
      exact ⟨_, rfl⟩
    · cases h

/-- What has been written is read back. -/
theorem decode_of_encode {b : Bundle} {bytes : Bytes}
    (hid : b.identifier = Header.formatIdentifier) (hversion : b.version = Header.formatVersion)
    (h : b.encode = .ok bytes) : decode bytes = .ok b := by
  obtain ⟨head, hhead, hlen, rfl⟩ := (encode_eq_ok_iff _ _).mp h
  rw [decode_eq_ok_iff]
  refine ⟨b.toBody.encode, ?_, ?_⟩
  · exact (Header.read_eq_ok_iff _ _ _).mpr ⟨hid, hversion, head, hhead, rfl⟩
  · exact (Body.decode_eq_ok_iff _ _).mpr ⟨Body.fits_of_length_le hlen, rfl⟩

/-- What is written under the label of a suite is read back. -/
theorem decode_of_encode_label {b : Bundle} {id : String} {bytes : Bytes}
    (hheader : b.toHeader = Header.ofSuite id) (h : b.encode = .ok bytes) : decode bytes = .ok b :=
  decode_of_encode (congrArg Header.identifier hheader) (congrArg Header.version hheader) h

theorem suiteIdOf?_of_decode {bytes : Bytes} {b : Bundle} (h : decode bytes = .ok b) :
    suiteIdOf? bytes = some b.suiteId := by
  obtain ⟨rest, hread, -⟩ := (decode_eq_ok_iff _ _).mp h
  rw [suiteIdOf?, hread]

/-- What is read has been written in no other way. -/
theorem encode_of_decode {b : Bundle} {bytes : Bytes}
    (small : ∀ header rest, Header.read bytes = .ok (header, rest) →
      rest.length ≤ Body.maxLength)
    (h : decode bytes = .ok b) :
    b.identifier = Header.formatIdentifier ∧ b.version = Header.formatVersion ∧
      b.encode = .ok bytes := by
  obtain ⟨rest, hr, hb⟩ := (decode_eq_ok_iff _ _).mp h
  obtain ⟨hid, hversion, head, hhead, rfl⟩ := (Header.read_eq_ok_iff _ _ _).mp hr
  obtain ⟨-, rfl⟩ := (Body.decode_eq_ok_iff _ _).mp hb
  have hlen := small _ _ hr
  exact ⟨hid, hversion, (encode_eq_ok_iff _ _).mpr ⟨head, hhead, hlen, rfl⟩⟩

/-- **The wire format is a bijection.** A byte string with at most `2 ^ 32` bytes behind the
header reads as a bundle exactly when the bundle has this format and version and is written
as that byte string; a byte string that does not read is malformed; and a bundle of this
format and version with an id of 1 to 255 bytes and no longer a body can be written and is
read back. -/
theorem decode_eq_ok_iff_encode_eq_ok (bytes : Bytes) (b : Bundle)
    (small : ∀ header rest, Header.read bytes = .ok (header, rest) →
      rest.length ≤ Body.maxLength) :
    (decode bytes = .ok b ↔ b.identifier = Header.formatIdentifier ∧
      b.version = Header.formatVersion ∧ b.encode = .ok bytes) ∧
    (∀ e, decode bytes = .error e → ∃ detail, e = .malformedBundle detail) ∧
    (b.identifier = Header.formatIdentifier → b.version = Header.formatVersion →
      1 ≤ (Text.utf8 b.suiteId).length → (Text.utf8 b.suiteId).length ≤ 255 →
      b.toBody.encode.length ≤ Body.maxLength →
      ∃ written, b.encode = .ok written ∧ decode written = .ok b) := by
  refine ⟨⟨encode_of_decode small, ?_⟩, fun e => malformedBundle_of_decode, ?_⟩
  · rintro ⟨hid, hversion, he⟩
    exact decode_of_encode hid hversion he
  · intro hid hversion hmin hmax hlen
    have hhead := (Header.encode_eq_ok_iff b.toHeader _).mpr ⟨⟨hmin, hmax⟩, rfl⟩
    have he := (encode_eq_ok_iff b _).mpr ⟨_, hhead, hlen, rfl⟩
    exact ⟨_, he, decode_of_encode hid hversion he⟩

/-- A bundle whose id takes two bytes, with a recorded cost and empty fields. -/
def accented : Bundle :=
  ⟨Header.ofSuite "é", none, [7], [], [9, 8], [], none, some (.pbkdf2Sha256 258), some []⟩

/-- What `accented` is written as. -/
def accentedBytes : Bytes := [65, 71, 76, 67, 1, 0, 2, 195, 169, 0, 1, 0, 0, 0, 0, 0, 0, 0, 7, 0, 0,
  0, 0, 0, 0, 0, 0, 2, 0, 0, 0, 0, 0, 0, 0, 9, 8, 0, 0, 0, 0, 0, 0, 0, 0, 0, 1, 1, 0, 0, 0, 2, 1,
  0, 0, 1, 0, 0, 0, 0, 0, 0, 0, 0]

theorem decode_eq_ok_iff_encode_eq_ok_accented :
    (∀ header rest, Header.read accentedBytes = .ok (header, rest) →
      rest.length ≤ Body.maxLength) ∧
    decode accentedBytes = .ok accented ∧
    ∃ written, accented.encode = .ok written ∧ decode written = .ok accented := by
  have small : ∀ header rest, Header.read accentedBytes = .ok (header, rest) →
      rest.length ≤ Body.maxLength := by
    intro header rest hr
    have hle := Header.length_le_of_read hr
    have hlen : accentedBytes.length ≤ Body.maxLength := by decide
    omega
  have hencode : accented.encode = .ok accentedBytes := by rfl
  obtain ⟨hiff, -, hsurvives⟩ := decode_eq_ok_iff_encode_eq_ok accentedBytes accented small
  exact ⟨small, hiff.mpr ⟨rfl, rfl, hencode⟩,
    hsurvives rfl rfl (by decide +kernel) (by decide +kernel) (by decide +kernel)⟩

end Bundle

end AgileSeal
