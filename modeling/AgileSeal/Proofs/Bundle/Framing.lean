import AgileSeal.Proofs.Bundle.WireFormat

set_option autoImplicit false

/-! # Where a header and a bundle end

A byte string tells by itself where its header ends: a header is found in front of a byte string
exactly if it is of this format and version and its bytes stand there, whatever follows them
(`Header.peek_eq_ok_iff`). So a bundle can be routed before its body is looked at, and the header
that is written again when it is opened has the bytes that stand in the bundle
(`Bundle.header_routes`).

It also tells where the bundle ends: what follows the last field is left over and makes the byte
string malformed (`Bundle.decode_append`). A bundle that has been cut off can for this reason not
read as another, shorter one (`Bundle.decode_prefix_free`).
-/

namespace AgileSeal

namespace Header

/-! ## The end of the header -/

/-- A header takes seven bytes and those of its id. -/
theorem length_of_encode {h : Header} {head : Bytes} (hhead : h.encode = .ok head) :
    head.length = fixedLength + (Text.utf8 h.suiteId).length := by
  obtain ⟨-, rfl⟩ := (encode_eq_ok_iff _ _).mp hhead
  simp only [List.length_append, List.length_singleton, Vector.length_toList,
    Bytes.length_ofNatBE]
  rfl

/-- A header is found in front of a byte string exactly if its bytes stand there. -/
theorem peek_eq_ok_iff (bytes : Bytes) (h : Header) (n : Nat) :
    peek bytes = .ok (h, n) ↔ h.identifier = formatIdentifier ∧ h.version = formatVersion ∧
      n ≤ bytes.length ∧ h.encode = .ok (bytes.take n) := by
  rw [peek]
  constructor
  · intro hpeek
    split at hpeek
    · rename_i header rest hread
      cases hpeek
      obtain ⟨hid, hversion, head, hhead, rfl⟩ := (read_eq_ok_iff _ _ _).mp hread
      have hn : (head ++ rest).length - rest.length = head.length := by
        rw [List.length_append, Nat.add_sub_cancel]
      refine ⟨hid, hversion, Nat.sub_le _ _, ?_⟩
      rw [hn, List.take_left, hhead]
    · cases hpeek
  · rintro ⟨hid, hversion, hn, hhead⟩
    have hread : read bytes = .ok (h, bytes.drop n) :=
      (read_eq_ok_iff _ _ _).mpr
        ⟨hid, hversion, bytes.take n, hhead, (List.take_append_drop n bytes).symm⟩
    have hcount : bytes.length - (bytes.drop n).length = n := by
      rw [List.length_drop]
      omega
    simp only [hread, hcount]

/-- What is read as a header and what follows it are found by looking at the header alone. -/
theorem peek_of_read {bytes rest : Bytes} {h : Header} (hread : read bytes = .ok (h, rest)) :
    peek bytes = .ok (h, fixedLength + (Text.utf8 h.suiteId).length) := by
  obtain ⟨hid, hversion, head, hhead, rfl⟩ := (read_eq_ok_iff _ _ _).mp hread
  rw [peek_eq_ok_iff, ← length_of_encode hhead, List.length_append, List.take_left]
  exact ⟨hid, hversion, Nat.le_add_right _ _, hhead⟩

/-- Headers with the same bytes are the same. -/
theorem eq_of_encode_eq {h h' : Header} {head : Bytes} (hhead : h.encode = .ok head)
    (hhead' : h'.encode = .ok head) : h = h' := by
  obtain ⟨-, rfl⟩ := (encode_eq_ok_iff _ _).mp hhead
  obtain ⟨-, heq⟩ := (encode_eq_ok_iff _ _).mp hhead'
  simp only [List.append_assoc] at heq
  obtain ⟨hid, hrest⟩ := List.append_inj heq (by rw [Vector.length_toList, Vector.length_toList])
  obtain ⟨hversion, hrest⟩ := List.append_inj hrest rfl
  obtain ⟨-, hsuite⟩ := List.append_inj hrest (by rw [Bytes.length_ofNatBE, Bytes.length_ofNatBE])
  obtain ⟨identifier, version, suiteId⟩ := h
  obtain ⟨identifier', version', suiteId'⟩ := h'
  cases Vector.toList_inj.mp hid
  cases hversion
  cases Text.utf8_inj.mp hsuite
  rfl

end Header

namespace Bundle

/-! ## The header of a bundle -/

/-- The header of a bundle that is read stands in front of it, and is what the encryption
authenticates. -/
theorem peek_of_decode {bytes : Bytes} {b : Bundle} (h : decode bytes = .ok b) :
    Header.peek bytes = .ok (b.toHeader, Header.fixedLength + (Text.utf8 b.suiteId).length) := by
  obtain ⟨rest, hread, -⟩ := (decode_eq_ok_iff _ _).mp h
  exact Header.peek_of_read hread

/-- **Headers route by themselves and are the associated data.** A header of this format and
version is found in front of whatever follows it, with the count of its bytes, and what is found in
front of a byte string is written as the bytes that stand there. So a bundle that is read is routed
to its suite, its associated data are the bytes of its header as they stand in it, and bundles with
the same associated data have the same identifier, version and suite id. -/
theorem header_routes (h : Header) (bytes : Bytes) :
    (∀ head tail, h.encode = .ok head → h.identifier = Header.formatIdentifier →
      h.version = Header.formatVersion →
      Header.peek (head ++ tail) = .ok (h, Header.fixedLength + (Text.utf8 h.suiteId).length)) ∧
    (∀ n, Header.peek bytes = .ok (h, n) →
      n ≤ bytes.length ∧ h.encode = .ok (bytes.take n)) ∧
    (∀ b, decode bytes = .ok b → suiteIdOf? bytes = some b.suiteId ∧
      Header.fixedLength + (Text.utf8 b.suiteId).length ≤ bytes.length ∧
      b.associatedData
        = .ok (bytes.take (Header.fixedLength + (Text.utf8 b.suiteId).length))) ∧
    ∀ (b b' : Bundle) associated, b.associatedData = .ok associated →
      b'.associatedData = .ok associated →
      b.identifier = b'.identifier ∧ b.version = b'.version ∧ b.suiteId = b'.suiteId := by
  refine ⟨fun head tail hhead hid hversion => ?_, fun n hpeek => ?_, fun b hdecode => ?_,
    fun b b' associated hb hb' => ?_⟩
  · exact Header.peek_of_read
      ((Header.read_eq_ok_iff _ _ _).mpr ⟨hid, hversion, head, hhead, rfl⟩)
  · exact ((Header.peek_eq_ok_iff _ _ _).mp hpeek).2.2
  · obtain ⟨-, -, hlen, hhead⟩ := (Header.peek_eq_ok_iff _ _ _).mp (peek_of_decode hdecode)
    exact ⟨suiteIdOf?_of_decode hdecode, hlen, hhead⟩
  · have heq : b.toHeader = b'.toHeader := Header.eq_of_encode_eq hb hb'
    exact ⟨congrArg Header.identifier heq, congrArg Header.version heq,
      congrArg Header.suiteId heq⟩

/-- The header of `accented`, whose id takes two bytes, is found with a stray byte behind it and in
front of the whole bundle, whose associated data are its first nine bytes. They stay the same when
the bundle has another tag. -/
theorem header_routes_accented :
    (Header.ofSuite "é").encode = .ok [65, 71, 76, 67, 1, 0, 2, 195, 169] ∧
      Header.peek ([65, 71, 76, 67, 1, 0, 2, 195, 169] ++ [0xff])
        = .ok (Header.ofSuite "é", 9) ∧
      Header.peek accentedBytes = .ok (Header.ofSuite "é", 9) ∧ 9 ≤ accentedBytes.length ∧
      decode accentedBytes = .ok accented ∧ suiteIdOf? accentedBytes = some "é" ∧
      accented.associatedData = .ok (accentedBytes.take 9) ∧
      { accented with tag := [6] }.associatedData = .ok (accentedBytes.take 9) ∧
      accented.suiteId = { accented with tag := [6] }.suiteId := by
  have hhead : (Header.ofSuite "é").encode = .ok [65, 71, 76, 67, 1, 0, 2, 195, 169] := rfl
  have hencode : accented.encode = .ok accentedBytes := by rfl
  have hdecode := decode_of_encode rfl rfl hencode
  have hother : { accented with tag := [6] }.associatedData = .ok (accentedBytes.take 9) := rfl
  obtain ⟨hpeek, hfound, hroute, hsame⟩ := header_routes (Header.ofSuite "é") accentedBytes
  have hstray := hpeek _ [0xff] hhead rfl rfl
  have hwhole := hpeek _ (accentedBytes.drop 9) hhead rfl rfl
  obtain ⟨hlabel, -, hassociated⟩ := hroute accented hdecode
  exact ⟨hhead, hstray, hwhole, (hfound 9 hwhole).1, hdecode, hlabel, hassociated, hother,
    (hsame _ _ _ hassociated hother).2.2⟩

/-! ## The end of a bundle -/

/-- Bytes behind a bundle are left over when all its fields have been read. -/
theorem decode_append {bytes : Bytes} {b : Bundle} (h : decode bytes = .ok b) {extra : Bytes}
    (hextra : extra ≠ []) : decode (bytes ++ extra) = .error (unreadable .bytesRemain) := by
  obtain ⟨body, hread, hbody⟩ := (decode_eq_ok_iff _ _).mp h
  obtain ⟨hid, hversion, head, hhead, rfl⟩ := (Header.read_eq_ok_iff _ _ _).mp hread
  obtain ⟨hfits, rfl⟩ := (Body.decode_eq_ok_iff _ _).mp hbody
  obtain ⟨first, others, rfl⟩ := List.exists_cons_of_ne_nil hextra
  have hheader : Header.read (head ++ b.toBody.encode ++ first :: others)
      = .ok (b.toHeader, b.toBody.encode ++ first :: others) :=
    (Header.read_eq_ok_iff _ _ _).mpr
      ⟨hid, hversion, head, hhead, List.append_assoc _ _ _⟩
  have hfields : Body.readFields (b.toBody.encode ++ first :: others)
      = .ok (b.toBody, first :: others) :=
    (Body.exact_readFields _ _ _).mpr ⟨hfits, rfl⟩
  have hremain : Body.decode (b.toBody.encode ++ first :: others) = .error .bytesRemain := by
    rw [Body.decode, hfields]
  rw [decode]
  simp only [hheader, hremain]

/-- **The wire format is prefix-free.** Of a byte string that reads as a bundle every part that is
cut off behind, and every continuation, is malformed. -/
theorem decode_prefix_free {bytes : Bytes} {b : Bundle} (h : decode bytes = .ok b) :
    (∀ cut, cut <+: bytes → cut ≠ bytes →
      ∃ detail, decode cut = .error (.malformedBundle detail)) ∧
    ∀ extra, extra ≠ [] → ∃ detail, decode (bytes ++ extra) = .error (.malformedBundle detail) := by
  constructor
  · rintro cut ⟨extra, rfl⟩ hne
    have hextra : extra ≠ [] := by
      rintro rfl
      exact hne (List.append_nil cut).symm
    cases hcut : decode cut with
    | error e =>
        obtain ⟨detail, rfl⟩ := malformedBundle_of_decode hcut
        exact ⟨detail, rfl⟩
    | ok b' =>
        -- the shorter bundle would end where the longer one goes on
        have hlonger := decode_append hcut hextra
        rw [h] at hlonger
        cases hlonger
  · intro extra hextra
    exact ⟨_, decode_append h hextra⟩

/-- `accented` cut off within a field and continued by a byte. -/
theorem decode_prefix_free_accented : decode accentedBytes = .ok accented ∧
    (∃ detail, decode (accentedBytes.take 20) = .error (.malformedBundle detail)) ∧
    ∃ detail, decode (accentedBytes ++ [0]) = .error (.malformedBundle detail) := by
  have hencode : accented.encode = .ok accentedBytes := by rfl
  have hdecode := decode_of_encode rfl rfl hencode
  obtain ⟨hcut, hlonger⟩ := decode_prefix_free hdecode
  exact ⟨hdecode, hcut _ (List.take_prefix 20 _) (by decide), hlonger [0] (by decide)⟩

end Bundle

end AgileSeal
