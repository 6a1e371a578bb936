import AgileSeal.Proofs.Base64

set_option autoImplicit false

/-! # Base64 texts have one spelling

Reading accepts what writing produces and nothing else. The bytes that are read as symbols are the
symbols of their values (`eq_map_symbol_of_readSymbols`), and in the last piece the padding stands
behind all symbols and in the second half of a group (`Row`). What is read up to the end is
therefore canonical (`canonical_of_decodeBytes`): symbols and padding make whole groups, and no bits
are left over. A canonical text is the text of the bytes that it stands for
(`Canonical.eq_encodeBytes`), so a text is read as a byte string exactly if it is the text of that
byte string, but for blanks at its ends (`decodeBytes_eq_ok_iff`, `decode_eq_ok_iff`).
-/

namespace AgileSeal.Base64

/-! ## Symbols -/

/-- Each value has one symbol. -/
theorem symbol_of_value? {b : UInt8} {v : Nat} (h : value? b = some v) :
    v < 64 ∧ symbol v = b := by
  have all : ∀ n < 256, ∀ v ∈ value? (UInt8.ofNat n), v < 64 ∧ symbol v = UInt8.ofNat n := by
    decide +kernel
  have hb := all b.toNat b.toNat_lt
  rw [UInt8.ofNat_toNat] at hb
  exact hb v h

/-- One symbol is read at a time. -/
theorem readSymbols_cons_eq_ok {offset : Nat} {b : UInt8} {rest : Bytes} {vs : List Nat}
    (h : readSymbols offset (b :: rest) = .ok vs) :
    ∃ v values, value? b = some v ∧ readSymbols (offset + 1) rest = .ok values ∧
      vs = v :: values := by
  rw [readSymbols] at h
  cases hvalue : value? b with
  | none =>
      rw [hvalue] at h
      cases h
  | some v =>
      cases hrest : readSymbols (offset + 1) rest with
      | error problem =>
          rw [hvalue, hrest] at h
          cases h
      | ok values =>
          rw [hvalue, hrest] at h
          exact ⟨v, values, rfl, rfl, (Except.ok.inj h).symm⟩

theorem eq_map_symbol_of_readSymbols {offset : Nat} {text : Bytes} {vs : List Nat}
    (h : readSymbols offset text = .ok vs) : text = vs.map symbol ∧ ∀ v ∈ vs, v < 64 := by
  induction text generalizing offset vs with
  | nil =>
      cases h
      exact ⟨rfl, List.forall_mem_nil _⟩
  | cons b rest ih =>
      obtain ⟨v, values, hvalue, hrest, rfl⟩ := readSymbols_cons_eq_ok h
      obtain ⟨hv, hsymbol⟩ := symbol_of_value? hvalue
      obtain ⟨hrow, hvalues⟩ := ih hrest
      refine ⟨?_, List.forall_mem_cons.mpr ⟨hv, hvalues⟩⟩
      rw [List.map_cons, hsymbol, ← hrow]

/-! ## The last piece -/

/-- A row of symbols for values with padding behind them. The row begins at a place of the last
piece, and all padding stands in the second half of one group. -/
structure Row (index : Nat) (text : Bytes) (vs : List Nat) (pads : Nat) : Prop where
  text_eq : text = vs.map symbol ++ List.replicate pads padByte
  values_lt : ∀ v ∈ vs, v < 64
  place : pads = 0 ∨ 2 ≤ (index + vs.length) % 4 ∧ (index + vs.length) % 4 + pads ≤ 4

namespace Row

theorem nil (index : Nat) : Row index [] [] 0 :=
  ⟨rfl, List.forall_mem_nil _, .inl rfl⟩

/-- Padding before padding. -/
theorem pad {index : Nat} {rest : Bytes} {pads : Nat} (h : Row (index + 1) rest [] pads)
    (hplace : 2 ≤ index % 4) : Row index (padByte :: rest) [] (pads + 1) := by
  refine ⟨?_, List.forall_mem_nil _, .inr ?_⟩
  · rw [List.replicate_succ, h.text_eq]
    rfl
  · have hrest := h.place
    rw [List.length_nil] at hrest ⊢
    omega

/-- A symbol before a row. -/
theorem cons {index : Nat} {rest : Bytes} {vs : List Nat} {pads : Nat}
    (h : Row (index + 1) rest vs pads) {b : UInt8} {v : Nat} (hvalue : value? b = some v) :
    Row index (b :: rest) (v :: vs) pads := by
  obtain ⟨hv, hsymbol⟩ := symbol_of_value? hvalue
  refine ⟨?_, List.forall_mem_cons.mpr ⟨hv, h.values_lt⟩, ?_⟩
  · rw [List.map_cons, hsymbol, List.cons_append, ← h.text_eq]
  · have hrest := h.place
    rwa [Nat.add_right_comm] at hrest

end Row

/-- The last piece is read byte by byte: padding, which does not begin the first half of a group, or
a symbol, if there was no padding before. -/
theorem readLast_cons_eq_ok {start index : Nat} {firstPad : Option Nat} {b : UInt8} {rest : Bytes}
    {vs : List Nat} {pads : Nat} (h : readLast start index firstPad (b :: rest) = .ok (vs, pads)) :
    (b = padByte ∧ 2 ≤ index % 4 ∧ ∃ fewer, pads = fewer + 1 ∧
      readLast start (index + 1) (some (firstPad.getD index)) rest = .ok (vs, fewer)) ∨
    (firstPad = none ∧ ∃ v values, value? b = some v ∧ vs = v :: values ∧
      readLast start (index + 1) none rest = .ok (values, pads)) := by
  rw [readLast.eq_def] at h
  simp only at h
  split at h
  · rename_i hpad
    split at h
    · cases h
    · rename_i hplace
      cases hrest : readLast start (index + 1) (some (firstPad.getD index)) rest with
      | error problem =>
          rw [hrest] at h
          cases h
      | ok result =>
          rw [hrest] at h
          cases h
          exact .inl ⟨hpad, Nat.le_of_not_lt hplace, result.2, rfl, rfl⟩
  · cases firstPad with
    | some pad => cases h
    | none =>
        cases hvalue : value? b with
        | none =>
            rw [hvalue] at h
            cases h
        | some v =>
            cases hrest : readLast start (index + 1) none rest with
            | error problem =>
                rw [hvalue, hrest] at h
                cases h
            | ok result =>
                rw [hvalue, hrest] at h
                cases h
                exact .inr ⟨rfl, v, result.1, rfl, rfl, rfl⟩

/-- What is read of the last piece is a row. Behind padding there is nothing but padding. -/
theorem row_of_readLast {start index : Nat} {firstPad : Option Nat} {text : Bytes} {vs : List Nat}
    {pads : Nat} (h : readLast start index firstPad text = .ok (vs, pads)) :
    Row index text vs pads ∧ (firstPad.isSome = true → vs = []) := by
  induction text generalizing index firstPad vs pads with
  | nil =>
      cases h
      exact ⟨.nil index, fun _ => rfl⟩
  | cons b rest ih =>
      rcases readLast_cons_eq_ok h with ⟨rfl, hplace, fewer, rfl, hrest⟩ |
        ⟨rfl, v, values, hvalue, rfl, hrest⟩
      · obtain ⟨hrow, hnil⟩ := ih hrest
        have hempty : vs = [] := hnil rfl
        rw [hempty] at hrow ⊢
        exact ⟨hrow.pad hplace, fun _ => rfl⟩
      · obtain ⟨hrow, -⟩ := ih hrest
        exact ⟨hrow.cons hvalue, fun hsome => Bool.noConfusion hsome⟩

theorem finish_eq_ok_iff {start : Nat} {text : Bytes} {leading last : List Nat} {pads : Nat}
    {bytes : Bytes} : finish start text leading last pads = .ok bytes ↔
      (pads + last.length) % 4 = 0 ∧ unusedBits last.length (last.getLastD 0) = 0 ∧
        joinValues (leading ++ last) = bytes := by
  rw [finish]
  by_cases hwhole : (pads + last.length) % 4 = 0
  · rw [if_neg (not_not_intro hwhole), and_iff_right hwhole]
    by_cases hunused : unusedBits last.length (last.getLastD 0) = 0
    · rw [if_neg (not_not_intro hunused), and_iff_right hunused, Except.ok.injEq]
    · rw [if_pos hunused]
      exact iff_of_false (fun h => by cases h) fun h => hunused h.1
  · rw [if_pos hwhole]
    exact iff_of_false (fun h => by cases h) fun h => hwhole h.1

/-- A text that is read is read piece by piece. -/
theorem pieces_of_decodeBytes {text bytes : Bytes} (h : decodeBytes text = .ok bytes) :
    ∃ start leading last pads, start = (text.length - 1) / 8 * 8 ∧
      readSymbols 0 (text.take start) = .ok leading ∧
      readLast start 0 none (text.drop start) = .ok (last, pads) ∧
      finish start (text.drop start) leading last pads = .ok bytes := by
  rw [decodeBytes] at h
  split at h
  · simp only at h
    split at h <;> cases h
  · simp only at h
    generalize (text.length - 1) / 8 * 8 = start at h
    cases hleading : readSymbols 0 (text.take start) with
    | error problem =>
        rw [hleading] at h
        cases h
    | ok leading =>
        cases hlast : readLast start 0 none (text.drop start) with
        | error problem =>
            rw [hleading, hlast] at h
            cases h
        | ok result =>
            rw [hleading, hlast] at h
            exact ⟨start, leading, result.1, result.2, rfl, hleading, hlast, h⟩

/-! ## Canonical texts -/

/-- A text of symbols for values with padding that fills up the last group. No bits of the values
are left over. -/
structure Canonical (text : Bytes) (vs : List Nat) (pads : Nat) : Prop where
  text_eq : text = vs.map symbol ++ List.replicate pads padByte
  values_lt : ∀ v ∈ vs, v < 64
  complete : Complete vs pads

theorem canonical_encodeBytes (bytes : Bytes) :
    Canonical (encodeBytes bytes) (values bytes) (pads bytes) :=
  ⟨encodeBytes_eq bytes, values_lt bytes, complete_values bytes⟩

/-- A text that is read is canonical. -/
theorem canonical_of_decodeBytes {text bytes : Bytes} (h : decodeBytes text = .ok bytes) :
    ∃ vs pads, Canonical text vs pads ∧ joinValues vs = bytes := by
  obtain ⟨start, leading, last, pads, hstart, hleading, hlast, hfinish⟩ := pieces_of_decodeBytes h
  obtain ⟨htake, hleadingLt⟩ := eq_map_symbol_of_readSymbols hleading
  obtain ⟨⟨hdrop, hlastLt, hplace⟩, -⟩ := row_of_readLast hlast
  obtain ⟨hwhole, hunused, hjoin⟩ := finish_eq_ok_iff.mp hfinish
  -- the pieces before the last one are whole groups
  have hgroups : leading.length % 4 = 0 := by
    have hlength : leading.length = start := by
      rw [← List.length_map (f := symbol), ← htake, List.length_take]
      omega
    omega
  refine ⟨leading ++ last, pads, ⟨?_, ?_, ?_, ?_, ?_⟩, hjoin⟩
  · rw [List.map_append, List.append_assoc, ← htake, ← hdrop, List.take_append_drop]
  · exact List.forall_mem_append.mpr ⟨hleadingLt, hlastLt⟩
  · rw [List.length_append]
    omega
  · omega
  · exact (unusedBits_append hgroups last).trans hunused

/-- Complete groups of values are the values of the bytes that they stand for. -/
theorem values_joinValues {vs : List Nat} {count : Nat} (hlt : ∀ v ∈ vs, v < 64)
    (h : Complete vs count) : values (joinValues vs) = vs ∧ pads (joinValues vs) = count := by
  obtain ⟨hwhole, hfew, hunused⟩ := h
  have hbyte {n : Nat} (hn : n < 256) : (UInt8.ofNat n).toNat = n := UInt8.toNat_ofNat_of_lt' hn
  induction vs using joinValues.induct with
  | case1 a b c d rest ih =>
      simp only [List.forall_mem_cons] at hlt
      obtain ⟨ha, hb, hc, hd, hrest⟩ := hlt
      have hgroup : [a, b, c, d].length % 4 = 0 := Nat.mod_self 4
      have hlength : (a :: b :: c :: d :: rest).length = rest.length + 4 := rfl
      rw [hlength] at hwhole
      have htail := ih hrest (by omega) ((unusedBits_append hgroup rest).symm.trans hunused)
      rw [joinValues, values, pads, htail.1, hbyte (by omega), hbyte (by omega), hbyte (by omega)]
      refine ⟨?_, htail.2⟩
      -- the six bits of each value, cut out of the three bytes again
      have h₁ : (a * 4 + b / 16) / 4 = a := by omega
      have h₂ : (a * 4 + b / 16) % 4 * 16 + (b % 16 * 16 + c / 4) / 16 = b := by omega
      have h₃ : (b % 16 * 16 + c / 4) % 16 * 4 + (c % 4 * 64 + d) / 64 = c := by omega
      have h₄ : (c % 4 * 64 + d) % 64 = d := by omega
      rw [h₁, h₂, h₃, h₄]
  | case2 a b c =>
      simp only [List.forall_mem_cons] at hlt
      obtain ⟨ha, hb, hc, -⟩ := hlt
      -- the third value has no bits beyond the second byte
      have hzero : c % 4 = 0 := hunused
      have hcount : count = 1 := by
        rw [List.length_cons, List.length_cons, List.length_singleton] at hwhole
        omega
      rw [joinValues, values, pads, hbyte (by omega), hbyte (by omega)]
      refine ⟨?_, hcount.symm⟩
      have h₁ : (a * 4 + b / 16) / 4 = a := by omega
      have h₂ : (a * 4 + b / 16) % 4 * 16 + (b % 16 * 16 + c / 4) / 16 = b := by omega
      have h₃ : (b % 16 * 16 + c / 4) % 16 * 4 = c := by omega
      rw [h₁, h₂, h₃]
  | case3 a b =>
      simp only [List.forall_mem_cons] at hlt
      obtain ⟨ha, hb, -⟩ := hlt
      have hzero : b % 16 = 0 := hunused
      have hcount : count = 2 := by
        rw [List.length_cons, List.length_singleton] at hwhole
        omega
      rw [joinValues, values, pads, hbyte (by omega)]
      refine ⟨?_, hcount.symm⟩
      have h₁ : (a * 4 + b / 16) / 4 = a := by omega
      have h₂ : (a * 4 + b / 16) % 4 * 16 = b := by omega
      rw [h₁, h₂]
  | case4 vs hfour hthree htwo =>
      -- one value alone would need three bytes of padding
      rcases vs with _ | ⟨a, _ | ⟨b, _ | ⟨c, _ | ⟨d, rest⟩⟩⟩⟩
      · rw [List.length_nil] at hwhole
        exact ⟨rfl, show 0 = count by omega⟩
      · rw [List.length_singleton] at hwhole
        omega
      · exact absurd rfl (htwo a b)
      · exact absurd rfl (hthree a b c)
      · exact absurd rfl (hfour a b c d rest)

/-- A canonical text is the text of the bytes that it stands for. -/
theorem Canonical.eq_encodeBytes {text : Bytes} {vs : List Nat} {pads : Nat}
    (h : Canonical text vs pads) : text = encodeBytes (joinValues vs) := by
  obtain ⟨hvalues, hpads⟩ := values_joinValues h.values_lt h.complete
  rw [encodeBytes_eq, hvalues, hpads, h.text_eq]

/-! ## One spelling -/

/-- **What is read is what is written**, symbol by symbol. -/
theorem decodeBytes_eq_ok_iff {text bytes : Bytes} :
    decodeBytes text = .ok bytes ↔ text = encodeBytes bytes := by
  constructor
  · intro h
    obtain ⟨vs, count, hcanonical, rfl⟩ := canonical_of_decodeBytes h
    exact hcanonical.eq_encodeBytes
  · rintro rfl
    exact decodeBytes_encodeBytes bytes

/-- **Each byte string has one text**, up to the blanks around it. -/
theorem decode_eq_ok_iff {text : String} {bytes : Bytes} :
    decode text = .ok bytes ↔ Text.trim text = encode bytes := by
  rw [decode, decodeBytes_eq_ok_iff, ← utf8_encode, Text.utf8_inj]

/-- The texts of byte strings are the canonical ones. -/
theorem exists_encode_iff {text : String} :
    (∃ bytes, text = encode bytes) ↔ ∃ vs pads, Canonical (Text.utf8 text) vs pads := by
  constructor
  · rintro ⟨bytes, rfl⟩
    rw [utf8_encode]
    exact ⟨values bytes, pads bytes, canonical_encodeBytes bytes⟩
  · rintro ⟨vs, pads, h⟩
    refine ⟨joinValues vs, Text.utf8_inj.mp ?_⟩
    rw [utf8_encode]
    exact h.eq_encodeBytes

end AgileSeal.Base64
