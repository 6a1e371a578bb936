import AgileSeal.Proofs.Operations
import AgileSeal.Proofs.Text.Blank
import AgileSeal.Suite.Definition

set_option autoImplicit false

/-! # Names of suites

A text names an algorithm if, without the blanks around it, it differs from one of the names of the
algorithm at most in the case of ASCII letters (`Algorithm.Named`). In each of the six lists every
name leads to the entry that it stands in (`Algorithm.Listed`), so a text names one algorithm at
most, and this one is found (`Algorithm.ofName?_eq_ok_iff`).

A suite is found if its id will do and each of its names is one of the list that it belongs to
(`SuiteNames.Readable`). The names that are shown of it lead back to it, and names may be written
with any blanks around them and in any case (`SuiteDefinition.ofNames_canonical`).
-/

namespace AgileSeal

/-! ## Algorithms -/

namespace Algorithm

/-- A text names an algorithm: it is one of its names up to the blanks around it and the case of
ASCII letters. -/
def Named {α : Type} [Algorithm α] (text : String) (a : α) : Prop :=
  ∃ name, (name, a) ∈ (names : List (String × α)) ∧
    Text.sameName name (Text.trim text) = true

/-- Every name of a list is found in it, and none is empty. -/
class Listed (α : Type) [Algorithm α] : Prop where
  ne_empty : ∀ entry ∈ (names : List (String × α)), entry.1 ≠ ""
  found : ∀ entry ∈ (names : List (String × α)), findName names entry.1 = some entry.2

instance : Listed ClassicalKem := ⟨by decide, by decide⟩

instance : Listed PqcKem := ⟨by decide, by decide⟩

instance : Listed SymmetricCipher := ⟨by decide, by decide⟩

instance : Listed KeyDerivation := ⟨by decide, by decide⟩

instance : Listed PassphraseKdf := ⟨by decide, by decide⟩

instance : Listed KeyMode := ⟨by decide, by decide⟩

variable {α : Type}

/-- Texts that are the name of the same find the same. -/
theorem findName_congr {list : List (String × α)} {text text' : String}
    (h : ∀ name, Text.sameName name text = Text.sameName name text') :
    findName list text = findName list text' := by
  rw [findName, findName, funext fun entry : String × α => h entry.1]

theorem exists_of_findName {list : List (String × α)} {text : String} {a : α}
    (h : findName list text = some a) :
    ∃ name, (name, a) ∈ list ∧ Text.sameName name text = true := by
  rw [findName, Option.map_eq_some_iff] at h
  obtain ⟨⟨name, b⟩, hfind, rfl⟩ := h
  have hsame := List.find?_some hfind
  exact ⟨name, List.mem_of_find?_eq_some hfind, hsame⟩

variable [Algorithm α] [Listed α]

/-- A text that is empty up to blanks names no algorithm. -/
theorem Named.trim_ne_empty {text : String} {a : α} (h : Named text a) : Text.trim text ≠ "" := by
  obtain ⟨name, hmem, hsame⟩ := h
  intro hempty
  rw [hempty, Text.sameName, beq_iff_eq] at hsame
  have hnil : name.toList = [] := List.map_eq_nil_iff.mp hsame
  exact Listed.ne_empty _ hmem (String.toList_eq_nil_iff.mp hnil)

theorem findName_eq_some_iff {text : String} {a : α} :
    findName names (Text.trim text) = some a ↔ Named text a := by
  constructor
  · exact exists_of_findName
  · rintro ⟨name, hmem, hsame⟩
    -- the text and the name find the same entry, and the name finds its own
    have hlower := eq_of_beq hsame
    have halike (other : String) :
        Text.sameName other (Text.trim text) = Text.sameName other name := by
      rw [Text.sameName, Text.sameName, hlower]
    calc findName names (Text.trim text)
        = findName names name := findName_congr halike
      _ = some a := Listed.found _ hmem

/-- **An algorithm is found by its names**, with any blanks around them and in any case. -/
theorem ofName?_eq_ok_iff {text : String} {a : α} : ofName? text = .ok a ↔ Named text a := by
  rw [← findName_eq_some_iff, ofName?]
  by_cases hempty : Text.trim text = ""
  · refine iff_of_false ?_ fun hfind => (findName_eq_some_iff.mp hfind).trim_ne_empty hempty
    intro h
    simp only [if_pos hempty] at h
    cases h
  · simp only [if_neg hempty]
    cases (findName names (Text.trim text) : Option α) with
    | none => exact iff_of_false (fun h => by cases h) (fun h => by cases h)
    | some b =>
        constructor
        · rintro ⟨⟩
          rfl
        · rintro ⟨⟩
          rfl

omit [Listed α] in
theorem named_folded_iff {text : String} {a : α} :
    Named (Text.folded text) a ↔ Named text a := by
  unfold Named
  simp only [Text.sameName_trim_folded]

end Algorithm

/-! ## Suites -/

namespace SuiteNames

/-- The names as they are compared with those of the algorithms. -/
def folded (names : SuiteNames) : SuiteNames where
  classicalKem := Text.folded names.classicalKem
  pqcKem := Text.folded names.pqcKem
  symmetric := Text.folded names.symmetric
  kdf := Text.folded names.kdf
  mode := Text.folded names.mode
  passphraseKdf := names.passphraseKdf.map Text.folded

/-- The way of stretching that is named, or Argon2id where none is named. -/
def Stretching (name : Option String) (a : PassphraseKdf) : Prop :=
  (∃ text, name = some text ∧ Algorithm.Named text a) ∨ name = none ∧ a = .argon2id

/-- The names of a suite under an id. -/
structure Describe (names : SuiteNames) (id : String) (s : SuiteDefinition) : Prop where
  notBlank : Text.isAllBlank id = false
  short : (Text.utf8 id).length ≤ 255
  sameId : s.id = id
  classicalKem : Algorithm.Named names.classicalKem s.classicalKem
  pqcKem : Algorithm.Named names.pqcKem s.pqcKem
  symmetric : Algorithm.Named names.symmetric s.symmetric
  kdf : Algorithm.Named names.kdf s.kdf
  passphraseKdf : Stretching names.passphraseKdf s.passphraseKdf
  mode : Algorithm.Named names.mode s.mode

/-- **Readable names**: the id is not blank and has at most 255 bytes, and every name that is given
is that of an algorithm of its kind. -/
structure Readable (names : SuiteNames) (id : String) : Prop where
  notBlank : Text.isAllBlank id = false
  short : (Text.utf8 id).length ≤ 255
  classicalKem : ∃ a : ClassicalKem, Algorithm.Named names.classicalKem a
  pqcKem : ∃ a : PqcKem, Algorithm.Named names.pqcKem a
  symmetric : ∃ a : SymmetricCipher, Algorithm.Named names.symmetric a
  kdf : ∃ a : KeyDerivation, Algorithm.Named names.kdf a
  passphraseKdf : ∀ text, names.passphraseKdf = some text →
    ∃ a : PassphraseKdf, Algorithm.Named text a
  mode : ∃ a : KeyMode, Algorithm.Named names.mode a

variable {names : SuiteNames} {id : String}

theorem stretching_folded_iff {name : Option String} {a : PassphraseKdf} :
    Stretching (name.map Text.folded) a ↔ Stretching name a := by
  cases name with
  | none => rfl
  | some text =>
      simp only [Stretching, Option.map_some, Option.some_inj, exists_eq_left',
        Algorithm.named_folded_iff, reduceCtorEq, false_and]

theorem describe_folded_iff {s : SuiteDefinition} :
    names.folded.Describe id s ↔ names.Describe id s := by
  constructor
  · intro h
    exact ⟨h.notBlank, h.short, h.sameId, Algorithm.named_folded_iff.mp h.classicalKem,
      Algorithm.named_folded_iff.mp h.pqcKem, Algorithm.named_folded_iff.mp h.symmetric,
      Algorithm.named_folded_iff.mp h.kdf, stretching_folded_iff.mp h.passphraseKdf,
      Algorithm.named_folded_iff.mp h.mode⟩
  · intro h
    exact ⟨h.notBlank, h.short, h.sameId, Algorithm.named_folded_iff.mpr h.classicalKem,
      Algorithm.named_folded_iff.mpr h.pqcKem, Algorithm.named_folded_iff.mpr h.symmetric,
      Algorithm.named_folded_iff.mpr h.kdf, stretching_folded_iff.mpr h.passphraseKdf,
      Algorithm.named_folded_iff.mpr h.mode⟩

theorem exists_stretching_iff {name : Option String} : (∃ a, Stretching name a) ↔
    ∀ text, name = some text → ∃ a : PassphraseKdf, Algorithm.Named text a := by
  cases name with
  | none =>
      refine iff_of_true ⟨.argon2id, .inr ⟨rfl, rfl⟩⟩ ?_
      rintro text ⟨⟩
  | some text =>
      constructor
      · rintro ⟨a, ⟨_, ⟨⟩, ha⟩ | ⟨⟨⟩, -⟩⟩ _ ⟨⟩
        exact ⟨a, ha⟩
      · intro h
        obtain ⟨a, ha⟩ := h text rfl
        exact ⟨a, .inl ⟨text, rfl, ha⟩⟩

/-- Names are readable if they are those of some suite. -/
theorem exists_describe_iff : (∃ s, names.Describe id s) ↔ names.Readable id := by
  constructor
  · rintro ⟨s, h⟩
    exact ⟨h.notBlank, h.short, ⟨_, h.classicalKem⟩, ⟨_, h.pqcKem⟩, ⟨_, h.symmetric⟩, ⟨_, h.kdf⟩,
      exists_stretching_iff.mp ⟨_, h.passphraseKdf⟩, ⟨_, h.mode⟩⟩
  · intro h
    obtain ⟨classicalKem, hclassical⟩ := h.classicalKem
    obtain ⟨pqcKem, hpqc⟩ := h.pqcKem
    obtain ⟨symmetric, hsymmetric⟩ := h.symmetric
    obtain ⟨kdf, hkdf⟩ := h.kdf
    obtain ⟨passphraseKdf, hstretching⟩ := exists_stretching_iff.mpr h.passphraseKdf
    obtain ⟨mode, hmode⟩ := h.mode
    exact ⟨⟨id, classicalKem, pqcKem, symmetric, kdf, passphraseKdf, mode⟩, h.notBlank,
      h.short, rfl, hclassical, hpqc, hsymmetric, hkdf, hstretching, hmode⟩

end SuiteNames

namespace SuiteDefinition

/-- An id will do if it is not blank and not too long. -/
theorem checkId_eq_ok_iff {id : String} : checkId id = .ok () ↔
    Text.isAllBlank id = false ∧ (Text.utf8 id).length ≤ maxSuiteIdLength := by
  rw [checkId]
  by_cases hblank : Text.isAllBlank id = true
  · rw [if_pos hblank, hblank]
    exact iff_of_false (fun h => by cases h) fun h => by cases h.1
  · rw [if_neg hblank, and_iff_right (Bool.eq_false_iff.mpr hblank)]
    by_cases hlong : maxSuiteIdLength < (Text.utf8 id).length
    · rw [if_pos hlong]
      exact iff_of_false (fun h => by cases h) (Nat.not_le.mpr hlong)
    · rw [if_neg hlong]
      exact iff_of_true rfl (Nat.not_lt.mp hlong)

theorem readName_eq_ok_iff {α : Type} [Algorithm α] [Algorithm.Listed α] {id text : String}
    {a : α} : readName id text = .ok a ↔ Algorithm.Named text a := by
  rw [readName, mapError_eq_ok_iff, Algorithm.ofName?_eq_ok_iff]

theorem readStretching_eq_ok_iff {id : String} {name : Option String} {a : PassphraseKdf} :
    readStretching id name = .ok a ↔ SuiteNames.Stretching name a := by
  cases name with
  | none =>
      constructor
      · rintro ⟨⟩
        exact .inr ⟨rfl, rfl⟩
      · rintro (⟨_, ⟨⟩, -⟩ | ⟨-, rfl⟩)
        rfl
  | some text =>
      refine readName_eq_ok_iff.trans ?_
      constructor
      · intro h
        exact .inl ⟨text, rfl, h⟩
      · rintro (⟨_, ⟨⟩, h⟩ | ⟨⟨⟩, -⟩)
        exact h

/-- **A suite is found** if the names are those of the suite. -/
theorem ofNames_eq_ok_iff {id : String} {names : SuiteNames} {s : SuiteDefinition} :
    ofNames id names = .ok s ↔ names.Describe id s := by
  rw [ofNames, mapError_eq_ok_iff, read, check_bind_eq_ok_iff, checkId_eq_ok_iff]
  simp only [bind_eq_ok_iff, readName_eq_ok_iff, readStretching_eq_ok_iff]
  constructor
  · rintro ⟨⟨hblank, hshort⟩, _, hclassical, _, hpqc, _, hsymmetric, _, hkdf, _, hstretching, _,
      hmode, ⟨⟩⟩
    exact ⟨hblank, hshort, rfl, hclassical, hpqc, hsymmetric, hkdf, hstretching, hmode⟩
  · intro h
    refine ⟨⟨h.notBlank, h.short⟩, _, h.classicalKem, _, h.pqcKem, _, h.symmetric, _, h.kdf, _,
      h.passphraseKdf, _, h.mode, ?_⟩
    rw [← h.sameId]
    rfl

/-- A complaint about a suite. -/
theorem ofNames_eq_error {id : String} {names : SuiteNames} {e : Error}
    (h : ofNames id names = .error e) : ∃ detail, e = .configuration detail := by
  obtain ⟨problem, -, rfl⟩ := mapError_eq_error_iff.mp h
  exact ⟨_, rfl⟩

/-- The names that are shown of a suite are names of the suite. -/
theorem ofNames_info {id : String} {names : SuiteNames} {s : SuiteDefinition}
    (h : ofNames id names = .ok s) : ofNames s.id s.info.names = .ok s := by
  have hdescribe := ofNames_eq_ok_iff.mp h
  have hcheck : checkId s.id = .ok () := by
    rw [hdescribe.sameId, checkId_eq_ok_iff]
    exact ⟨hdescribe.notBlank, hdescribe.short⟩
  rw [ofNames, read_info s hcheck]
  rfl

/-- **Names are read canonically.** A suite is found if its id is not blank and has at most 255
bytes and each name that is given is that of an algorithm of its kind, up to the blanks around it
and the case of ASCII letters. Which suite it is depends on the id and on the folded names alone.
The names that are shown of it, that of the stretching included, give the suite again. All failures
are errors of the configuration. -/
theorem ofNames_canonical (id : String) (names : SuiteNames) :
    ((∃ s, ofNames id names = .ok s) ↔ names.Readable id) ∧
    (∀ s, ofNames id names = .ok s ↔ names.Describe id s) ∧
    (ofNames id names).toOption = (ofNames id names.folded).toOption ∧
    (∀ s, ofNames id names = .ok s → ofNames s.id s.info.names = .ok s) ∧
    FailsOnly (ofNames id names) fun e => ∃ detail, e = .configuration detail := by
  refine ⟨?_, fun s => ofNames_eq_ok_iff, ?_, fun s => ofNames_info, fun e => ofNames_eq_error⟩
  · rw [← SuiteNames.exists_describe_iff]
    exact exists_congr fun s => ofNames_eq_ok_iff
  · have hsame (s : SuiteDefinition) :
        ofNames id names = .ok s ↔ ofNames id names.folded = .ok s := by
      rw [ofNames_eq_ok_iff, ofNames_eq_ok_iff, SuiteNames.describe_folded_iff]
    refine Option.ext fun s => ?_
    rw [toOption_eq_some_iff, toOption_eq_some_iff, hsame]

/-- Names that are written with blanks, in other cases and with an alias. -/
def looseNames : SuiteNames where
  classicalKem := " x25519"
  pqcKem := "ml-kem-768\n"
  symmetric := "aes-256-gcm"
  kdf := "Hkdf-Sha256"
  mode := "PASSPHRASE"
  passphraseKdf := some "\tpbkdf2-sha256"

/-- The suite of these names. -/
def ofLooseNames : SuiteDefinition :=
  ⟨"suite", .x25519, .kyber768, .aes256Gcm, .hkdfSha256, .pbkdf2Sha256, .passphrase⟩

theorem ofNames_canonical_loose : ofNames "suite" looseNames = .ok ofLooseNames ∧
    ofNames ofLooseNames.id ofLooseNames.info.names = .ok ofLooseNames := by
  have hfound : ofNames "suite" looseNames = .ok ofLooseNames := by rfl
  exact ⟨hfound, (ofNames_canonical "suite" looseNames).2.2.2.1 ofLooseNames hfound⟩

end SuiteDefinition

end AgileSeal
