import AgileSeal.Base64
import AgileSeal.Proofs.Text.Blank

set_option autoImplicit false

/-! # Base64 is read back

The text of a byte string is a row of symbols for its values followed by padding
(`encodeBytes_eq`). Reading such a row in pieces of eight gives values and padding back, and the
values stand for the byte string again, so every byte string survives its text (`decode_encode`).
-/

namespace AgileSeal

/-- A text of ASCII characters takes one byte for each. -/
theorem Text.utf8_ofList_ascii {cs : List Char} (h : ∀ c ∈ cs, c.toNat < 128) :
    utf8 (String.ofList cs) = cs.map fun c => UInt8.ofNat c.toNat := by
  rw [utf8, String.toByteArray_ofList]
  induction cs with
  | nil => rfl
  | cons c cs ih =>
      have hc : c.toNat < 128 := h c List.mem_cons_self
      have hsize : c.utf8Size = 1 := by
        have hle : c.val.toNat ≤ 127 := Nat.le_of_lt_succ hc
        rw [Char.utf8Size, if_pos (UInt32.le_iff_toNat_le.mpr hle)]
      rw [List.utf8Encode_cons, List.utf8Encode_singleton,
        String.utf8EncodeChar_eq_singleton hsize, ByteArray.toList_data_append,
        ih fun d hd => h d (List.mem_cons_of_mem c hd)]
      rfl

namespace Base64

/-! ## The parts of a text -/

/-- The values of the symbols of a byte string. -/
def values : Bytes → List Nat
  | [] => []
  | [a] => [a.toNat / 4, a.toNat % 4 * 16]
  | [a, b] => [a.toNat / 4, a.toNat % 4 * 16 + b.toNat / 16, b.toNat % 16 * 4]
  | a :: b :: c :: rest =>
    a.toNat / 4 :: (a.toNat % 4 * 16 + b.toNat / 16) :: (b.toNat % 16 * 4 + c.toNat / 64) ::
      c.toNat % 64 :: values rest

/-- The count of padding bytes. -/
def pads : Bytes → Nat
  | [] => 0
  | [_] => 2
  | [_, _] => 1
  | _ :: _ :: _ :: rest => pads rest

theorem encodeBytes_eq (bytes : Bytes) :
    encodeBytes bytes = (values bytes).map symbol ++ List.replicate (pads bytes) padByte := by
  induction bytes using encodeBytes.induct with
  | case1 => rfl
  | case2 a => rfl
  | case3 a b => rfl
  | case4 a b c rest ih => rw [encodeBytes, ih]; rfl

theorem values_lt (bytes : Bytes) : ∀ v ∈ values bytes, v < 64 := by
  induction bytes using encodeBytes.induct with
  | case1 => exact List.forall_mem_nil _
  | case2 a =>
      have ha := a.toNat_lt
      simp only [values, List.forall_mem_cons]
      exact ⟨by omega, by omega, List.forall_mem_nil _⟩
  | case3 a b =>
      have ha := a.toNat_lt
      have hb := b.toNat_lt
      simp only [values, List.forall_mem_cons]
      exact ⟨by omega, by omega, by omega, List.forall_mem_nil _⟩
  | case4 a b c rest ih =>
      have ha := a.toNat_lt
      have hb := b.toNat_lt
      have hc := c.toNat_lt
      simp only [values, List.forall_mem_cons]
      exact ⟨by omega, by omega, by omega, by omega, ih⟩

/-- Padding fills up the last group, and no byte needs the low bits of the value before it. -/
structure Complete (vs : List Nat) (pads : Nat) : Prop where
  whole : (vs.length + pads) % 4 = 0
  few : pads ≤ 2
  unused : unusedBits vs.length (vs.getLastD 0) = 0

theorem complete_values (bytes : Bytes) : Complete (values bytes) (pads bytes) := by
  induction bytes using encodeBytes.induct with
  | case1 => exact ⟨rfl, Nat.zero_le 2, rfl⟩
  | case2 a =>
      refine ⟨?_, Nat.le_refl 2, Nat.mul_mod_left _ _⟩
      simp [values, pads]
  | case3 a b =>
      refine ⟨?_, Nat.le_succ 1, Nat.mul_mod_left _ _⟩
      simp [values, pads]
  | case4 a b c rest ih =>
      obtain ⟨hwhole, hfew, hunused⟩ := ih
      have hlength : (values (a :: b :: c :: rest)).length = (values rest).length + 4 := rfl
      refine ⟨?_, hfew, ?_⟩
      · rw [hlength]
        show ((values rest).length + 4 + pads rest) % 4 = 0
        omega
      · rw [hlength, unusedBits, Nat.add_mod_right]
        cases hrest : values rest with
        | nil => rfl
        | cons v vs =>
            rw [hrest] at hunused
            simpa [values, hrest, unusedBits] using hunused

/-- The values of a byte string stand for it. -/
theorem joinValues_values (bytes : Bytes) : joinValues (values bytes) = bytes := by
  have hbyte {n : Nat} {b : UInt8} (h : n = b.toNat) : UInt8.ofNat n = b := by
    rw [h, UInt8.ofNat_toNat]
  induction bytes using encodeBytes.induct with
  | case1 => rfl
  | case2 a => exact congrArg (· :: []) (hbyte (by omega))
  | case3 a b =>
      have hb := b.toNat_lt
      rw [values, joinValues, hbyte (b := a) (by omega), hbyte (b := b) (by omega)]
  | case4 a b c rest ih =>
      have hb := b.toNat_lt
      have hc := c.toNat_lt
      rw [values, joinValues, ih, hbyte (b := a) (by omega), hbyte (b := b) (by omega),
        hbyte (b := c) (by omega)]

/-- Whole groups before the last values do not change which bits are left over. -/
theorem unusedBits_append {leading : List Nat} (h : leading.length % 4 = 0) (last : List Nat) :
    unusedBits (leading ++ last).length ((leading ++ last).getLastD 0)
      = unusedBits last.length (last.getLastD 0) := by
  cases last with
  | nil =>
      rw [List.append_nil, unusedBits, h]
      rfl
  | cons v vs =>
      have hlength : (leading ++ v :: vs).length % 4 = (v :: vs).length % 4 := by
        rw [List.length_append, Nat.add_mod, h, Nat.zero_add, Nat.mod_mod]
      have hlast : (leading ++ v :: vs).getLastD 0 = (v :: vs).getLastD 0 := by
        rw [List.getLastD_eq_getLast?, List.getLastD_eq_getLast?, List.getLast?_append,
          List.getLast?_cons, Option.some_or]
      rw [unusedBits, unusedBits, hlength, hlast]

/-! ## Reading -/

theorem symbol_ne_padByte {v : Nat} (h : v < 64) : symbol v ≠ padByte := by
  intro heq
  have hvalue := value?_symbol v h
  rw [heq] at hvalue
  cases hvalue

theorem readSymbols_map_symbol {vs : List Nat} (h : ∀ v ∈ vs, v < 64) (offset : Nat) :
    readSymbols offset (vs.map symbol) = .ok vs := by
  induction vs generalizing offset with
  | nil => rfl
  | cons v vs ih =>
      rw [List.map_cons, readSymbols, value?_symbol v (h v List.mem_cons_self)]
      simp only [ih fun w hw => h w (List.mem_cons_of_mem v hw)]

/-- Padding that fills up a group is counted. -/
theorem readLast_replicate (start index : Nat) (firstPad : Option Nat) {pads : Nat}
    (hfew : pads ≤ 2) (hwhole : (index + pads) % 4 = 0) :
    readLast start index firstPad (List.replicate pads padByte) = .ok ([], pads) := by
  induction pads generalizing index firstPad with
  | zero => rfl
  | succ pads ih =>
      have hplace : ¬index % 4 < 2 := by omega
      have hrest := ih (index + 1) (some (firstPad.getD index)) (by omega) (by omega)
      rw [List.replicate_succ, readLast.eq_def]
      simp only [if_true, if_neg hplace, hrest]

theorem readLast_map_symbol {vs : List Nat} {pads : Nat} (hvalues : ∀ v ∈ vs, v < 64)
    (hfew : pads ≤ 2) (start index : Nat) (hwhole : (index + vs.length + pads) % 4 = 0) :
    readLast start index none (vs.map symbol ++ List.replicate pads padByte)
      = .ok (vs, pads) := by
  induction vs generalizing index with
  | nil => exact readLast_replicate start index none hfew hwhole
  | cons v vs ih =>
      have hv : v < 64 := hvalues v List.mem_cons_self
      have hrest := ih (fun w hw => hvalues w (List.mem_cons_of_mem v hw)) (index + 1)
        (by rw [List.length_cons] at hwhole; omega)
      rw [List.map_cons, List.cons_append, readLast.eq_def]
      simp only [if_neg (symbol_ne_padByte hv), value?_symbol v hv, hrest]

/-- Symbols and padding that make whole groups are read back. The text is cut before its last
piece, which begins at a multiple of eight, so values and padding stay complete. -/
theorem decodeBytes_of_complete {vs : List Nat} {pads : Nat} (hvalues : ∀ v ∈ vs, v < 64)
    (h : Complete vs pads) :
    decodeBytes (vs.map symbol ++ List.replicate pads padByte) = .ok (joinValues vs) := by
  obtain ⟨hwhole, hfew, hunused⟩ := h
  have hlength : (vs.map symbol ++ List.replicate pads padByte).length = vs.length + pads := by
    rw [List.length_append, List.length_map, List.length_replicate]
  have hgroups : ¬(vs.length + pads) % 4 = 1 := by omega
  rw [decodeBytes, hlength, if_neg hgroups]
  generalize hstart : (vs.length + pads - 1) / 8 * 8 = start
  have hle : start ≤ vs.length := by omega
  have htake : (vs.map symbol ++ List.replicate pads padByte).take start
      = (vs.take start).map symbol := by
    rw [List.take_append_of_le_length (by rw [List.length_map]; exact hle), List.map_take]
  have hdrop : (vs.map symbol ++ List.replicate pads padByte).drop start
      = (vs.drop start).map symbol ++ List.replicate pads padByte := by
    rw [List.drop_append_of_le_length (by rw [List.length_map]; exact hle), List.map_drop]
  have hlastWhole : (0 + (vs.drop start).length + pads) % 4 = 0 := by
    rw [List.length_drop]
    omega
  have hlast := readLast_map_symbol (fun v hv => hvalues v (List.mem_of_mem_drop hv)) hfew start 0
    hlastWhole
  simp only [htake, readSymbols_map_symbol fun v hv => hvalues v (List.mem_of_mem_take hv), hdrop,
    hlast]
  have hwhole' : (pads + (vs.drop start).length) % 4 = 0 := by omega
  have hunused' : unusedBits (vs.drop start).length ((vs.drop start).getLastD 0) = 0 := by
    have hgroups : (vs.take start).length % 4 = 0 := by
      rw [List.length_take]
      omega
    rw [← unusedBits_append hgroups, List.take_append_drop]
    exact hunused
  rw [finish, if_neg (not_not_intro hwhole'), if_neg (not_not_intro hunused'),
    List.take_append_drop]

theorem decodeBytes_encodeBytes (bytes : Bytes) : decodeBytes (encodeBytes bytes) = .ok bytes := by
  rw [encodeBytes_eq, decodeBytes_of_complete (values_lt bytes) (complete_values bytes),
    joinValues_values]

/-! ## Texts -/

/-- The bytes of a text are ASCII characters and none of them is a blank. -/
theorem plain_of_mem_encodeBytes {bytes : Bytes} {b : UInt8} (h : b ∈ encodeBytes bytes) :
    (Char.ofNat b.toNat).toNat = b.toNat ∧ b.toNat < 128 ∧
      Text.isBlank (Char.ofNat b.toNat) = false := by
  have hsymbol : ∀ v < 64, (Char.ofNat (symbol v).toNat).toNat = (symbol v).toNat ∧
      (symbol v).toNat < 128 ∧ Text.isBlank (Char.ofNat (symbol v).toNat) = false := by
    decide +kernel
  rw [encodeBytes_eq, List.mem_append] at h
  rcases h with h | h
  · obtain ⟨v, hv, rfl⟩ := List.mem_map.mp h
    exact hsymbol v (values_lt bytes v hv)
  · rw [List.eq_of_mem_replicate h]
    decide

theorem plain_of_mem_encode {bytes : Bytes} {c : Char}
    (hc : c ∈ (encodeBytes bytes).map fun b => Char.ofNat b.toNat) :
    c.toNat < 128 ∧ Text.isBlank c = false := by
  obtain ⟨b, hb, rfl⟩ := List.mem_map.mp hc
  obtain ⟨hchar, hlt, hblank⟩ := plain_of_mem_encodeBytes hb
  exact ⟨hchar.symm ▸ hlt, hblank⟩

theorem utf8_encode (bytes : Bytes) : Text.utf8 (encode bytes) = encodeBytes bytes := by
  rw [encode, Text.utf8_ofList_ascii fun c hc => (plain_of_mem_encode hc).1, List.map_map]
  refine (List.map_congr_left fun b hb => ?_).trans (List.map_id _)
  show UInt8.ofNat (Char.ofNat b.toNat).toNat = b
  rw [(plain_of_mem_encodeBytes hb).1, UInt8.ofNat_toNat]

/-- There is nothing to trim from the text of a byte string. -/
theorem trim_encode (bytes : Bytes) : Text.trim (encode bytes) = encode bytes := by
  refine Text.trim_of_no_blank fun c hc => ?_
  rw [encode, String.toList_ofList] at hc
  exact (plain_of_mem_encode hc).2

/-- **Every byte string survives its text.** -/
theorem decode_encode (bytes : Bytes) : decode (encode bytes) = .ok bytes := by
  rw [decode, trim_encode, utf8_encode, decodeBytes_encodeBytes]

end Base64

end AgileSeal
