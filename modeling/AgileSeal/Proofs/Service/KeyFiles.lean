import AgileSeal.Proofs.Engine.RoundTrip
import AgileSeal.Proofs.Keys.KeyFile
import AgileSeal.Proofs.Service.RoundTrip

set_option autoImplicit false

/-! # Keys in a file

Provisioning ends with the keys being written to a file. At a path that can be written, keys are
written exactly if they fit their suite; they are found again for every suite of that id and for no
other, and nothing else in the files changes (`Service.writeKeys_spec`). They are checked before the
files are touched, so what is refused changes nothing (`Service.world_of_writeKeys_eq_error`).
-/

namespace AgileSeal

/-- All suites have keys of the same lengths. -/
theorem KeyMaterial.problem?_eq_none_congr {k : KeyMaterial} {suite suite' : SuiteDefinition}
    (h : k.problem? suite = none) : k.problem? suite' = none := by
  rw [problem?_eq_none_iff] at h ⊢
  have hclassical : suite'.classicalKem = suite.classicalKem := by
    cases suite.classicalKem
    cases suite'.classicalKem
    rfl
  have hpqc : suite'.pqcKem = suite.pqcKem := by
    cases suite.pqcKem
    cases suite'.pqcKem
    rfl
  rwa [hclassical, hpqc]

/-- Keys that fit a suite can be stored at every path to which a file can be written. -/
theorem KeyFile.exists_store_iff {files : FileSystem} {path : String} (hpath : files.Writable path)
    {suite : SuiteDefinition} {k : KeyMaterial} :
    (∃ written, (store path suite k).on files = (.ok (), written)) ↔
      k.checkFor suite = .ok () := by
  constructor
  · rintro ⟨written, hstore⟩
    exact (store_eq_ok_iff.mp hstore).1
  · intro hfit
    obtain ⟨written, hwritten⟩ := hpath.exists_write (Text.utf8 (ofMaterial suite k).toJson)
    exact ⟨written, store_eq_ok_iff.mpr ⟨hfit, hwritten⟩⟩

namespace Service

variable {σ : Type}

/-- Writing keys changes the files as storing them does, and nothing else. -/
theorem value_writeKeys (path : String) (suite : SuiteDefinition) (keys : KeyMaterial)
    (w : World σ) : (writeKeys path suite keys w).value =
      (((KeyFile.store path suite keys).on w.files).1,
        { w with files := ((KeyFile.store path suite keys).on w.files).2 }) := rfl

theorem writeKeys_eq_ok_iff {path : String} {suite : SuiteDefinition} {keys : KeyMaterial}
    {w w' : World σ} : (writeKeys path suite keys w).value = (.ok (), w') ↔
      ∃ written, (KeyFile.store path suite keys).on w.files = (.ok (), written) ∧
        { w with files := written } = w' := by
  rw [value_writeKeys]
  rcases (KeyFile.store path suite keys).on w.files with ⟨result, files⟩
  constructor
  · intro h
    obtain ⟨hresult, hw'⟩ := Prod.mk.inj h
    exact ⟨files, Prod.ext hresult rfl, hw'⟩
  · rintro ⟨written, hwritten, rfl⟩
    cases hwritten
    rfl

/-- Keys that cannot be written leave the world as it was. -/
theorem world_of_writeKeys_eq_error {path : String} {suite : SuiteDefinition} {keys : KeyMaterial}
    {w w' : World σ} {e : Error} (h : (writeKeys path suite keys w).value = (.error e, w')) :
    w' = w := by
  rw [value_writeKeys] at h
  obtain ⟨hresult, rfl⟩ := Prod.mk.inj h
  have hfiles : ((KeyFile.store path suite keys).on w.files).2 = w.files :=
    KeyFile.files_of_store_eq_error (Prod.ext hresult rfl)
  rw [hfiles]

/-- **Keys in a file.** At a path that can be written, keys are written exactly if they fit their
suite, and otherwise the world is as it was. Afterwards every suite of the same id finds them there,
but for the salt of a passphrase, and every other suite is refused; nothing changes besides the file
at the path. -/
theorem writeKeys_spec {w : World σ} {path : String} (hpath : w.files.Writable path)
    (suite : SuiteDefinition) (keys : KeyMaterial) :
    ((∃ w', (writeKeys path suite keys w).value = (.ok (), w')) ↔
      keys.checkFor suite = .ok ()) ∧
    (∀ e w', (writeKeys path suite keys w).value = (.error e, w') → w' = w) ∧
    ∀ w', (writeKeys path suite keys w).value = (.ok (), w') →
      (∀ suite', suite'.id = suite.id →
        KeyFile.load w'.files path suite' = .ok { keys with passphraseSalt := none }) ∧
      (∀ suite', suite'.id ≠ suite.id →
        KeyFile.load w'.files path suite' = .error (KeyFile.foreignSuite suite.id suite'.id)) ∧
      w' = { w with files := w'.files } ∧ w.files.SameElsewhere w'.files path := by
  refine ⟨?_, fun e w' => world_of_writeKeys_eq_error, ?_⟩
  · rw [← KeyFile.exists_store_iff hpath]
    constructor
    · rintro ⟨w', h⟩
      obtain ⟨written, hwritten, -⟩ := writeKeys_eq_ok_iff.mp h
      exact ⟨written, hwritten⟩
    · rintro ⟨written, hwritten⟩
      exact ⟨_, writeKeys_eq_ok_iff.mpr ⟨written, hwritten, rfl⟩⟩
  · intro w' h
    obtain ⟨written, hwritten, rfl⟩ := writeKeys_eq_ok_iff.mp h
    obtain ⟨hfit, hfile⟩ := KeyFile.store_eq_ok_iff.mp hwritten
    have hkeys := (KeyMaterial.checkFor_eq_ok_iff _ _).mp hfit
    refine ⟨?_, ?_, rfl, FileSystem.sameElsewhere_of_write hfile⟩
    · intro suite' hid
      rw [KeyFile.load_eq_material_of_write hwritten]
      exact KeyFile.material_ofMaterial hid (KeyMaterial.problem?_eq_none_congr hkeys)
    · intro suite' hid
      rw [KeyFile.load_eq_material_of_write hwritten]
      exact KeyFile.material_ofMaterial_foreign keys hid

end Service

/-! ## A sample -/

/-- A suite whose id has to be escaped in the document of a key file. -/
def sampleQuotedSuite (mode : KeyMode) : SuiteDefinition := sampleSuite "\"д\\\n\x01\"" mode

/-- Keys of zeros, of which the private one of the lattice scheme is missing. -/
def sampleHalfKeys : KeyMaterial :=
  ⟨Bytes.zeros 32, Bytes.zeros 1184, some (Bytes.zeros 32), none, some [1, 2, 3]⟩

theorem problem?_sampleHalfKeys (suite : SuiteDefinition) :
    sampleHalfKeys.problem? suite = none := by
  have hfit : sampleHalfKeys.problem? (sampleQuotedSuite .keyFile) = none := by
    refine (KeyMaterial.problem?_eq_none_iff _ _).mpr
      ⟨List.length_replicate, List.length_replicate, ?_, ?_⟩
    · intro key hkey
      cases hkey
      exact List.length_replicate
    · intro key hkey
      cases hkey
  exact KeyMaterial.problem?_eq_none_congr hfit

theorem writable_sample : (FileSystem.emptyAt []).Writable "keys.json" := by
  refine ⟨rfl, ["keys.json"], ⟨[], rfl, rfl⟩, ?_⟩
  intro h
  cases h

namespace Service

/-- The keys are written, are found for a suite of the same id in another mode and not for the suite
`current`; without public keys they are not written. -/
theorem writeKeys_spec_quoted : ∃ w w' : World Unit,
    w.files.Writable "keys.json" ∧
    (writeKeys "keys.json" (sampleQuotedSuite .keyFile) sampleHalfKeys w).value = (.ok (), w') ∧
    KeyFile.load w'.files "keys.json" (sampleQuotedSuite .passphrase)
      = .ok { sampleHalfKeys with passphraseSalt := none } ∧
    KeyFile.load w'.files "keys.json" (sampleSuite "current" .keyFile)
      = .error (KeyFile.foreignSuite (sampleQuotedSuite .keyFile).id "current") ∧
    ¬∃ w'', (writeKeys "keys.json" (sampleQuotedSuite .keyFile) sampleHalfKeys.wiped w).value
      = (.ok (), w'') := by
  obtain ⟨w₀, -⟩ := exists_sampleReader
  let w : World Unit := { w₀ with files := .emptyAt [] }
  have hpath : w.files.Writable "keys.json" := writable_sample
  obtain ⟨hwritten, -, hfound⟩ := writeKeys_spec hpath (sampleQuotedSuite .keyFile) sampleHalfKeys
  obtain ⟨w', hw'⟩ := hwritten.mpr ((KeyMaterial.checkFor_eq_ok_iff _ _).mpr
    (problem?_sampleHalfKeys _))
  obtain ⟨hsame, hother, -, -⟩ := hfound w' hw'
  obtain ⟨hwiped, -, -⟩ := writeKeys_spec hpath (sampleQuotedSuite .keyFile) sampleHalfKeys.wiped
  refine ⟨w, w', hpath, hw', hsame _ rfl, hother (sampleSuite "current" .keyFile) (by decide), ?_⟩
  rw [hwiped, KeyMaterial.checkFor_eq_ok_iff, KeyMaterial.problem?_eq_none_iff]
  rintro ⟨hlength, -⟩
  exact absurd hlength (by decide)

end Service

end AgileSeal
