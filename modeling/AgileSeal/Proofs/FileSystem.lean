import AgileSeal.FileSystem
import AgileSeal.Proofs.Operations

set_option autoImplicit false

/-! # A written file is read back

A write puts a file at the place to which its path leads (`FileSystem.LeadsTo`). No directory stood
there, so every way through the file system is the same as before: the path leads there again
(`FileSystem.read_of_write`), and what other ways lead to is as before
(`FileSystem.sameElsewhere_of_write`).
-/

namespace AgileSeal.FileSystem

/-- A path leads to a place, whether or not something stands there. -/
def LeadsTo (fs : FileSystem) (path : String) (place : Place) : Prop :=
  ∃ directory, fs.parent path = .ok directory ∧ lastStep path directory = .ok place

/-- A file can be written to a path: it leads to a place where no directory stands. -/
def Writable (fs : FileSystem) (path : String) : Prop :=
  endsInSlash path = false ∧ ∃ place, fs.LeadsTo path place ∧ fs.node? place ≠ some .directory

/-- A path leads to one place at most. -/
theorem LeadsTo.eq {fs : FileSystem} {path : String} {place other : Place}
    (h : fs.LeadsTo path place) (h' : fs.LeadsTo path other) : place = other := by
  obtain ⟨directory, hparent, hstep⟩ := h
  obtain ⟨directory', hparent', hstep'⟩ := h'
  cases hparent.symm.trans hparent'
  exact Except.ok.inj (hstep.symm.trans hstep')

/-! ## Reading and writing -/

/-- What reading needs. -/
theorem read_eq_ok_iff {fs : FileSystem} {path : String} {content : Bytes} :
    fs.read path = .ok content ↔ endsInSlash path = false ∧
      ∃ place, fs.LeadsTo path place ∧ fs.node? place = some (.file content) := by
  rw [read, bind_eq_ok_iff]
  constructor
  · rintro ⟨directory, hparent, h⟩
    obtain ⟨place, hplace, h⟩ := bind_eq_ok_iff.mp h
    split at h
    · cases h
    · cases h
    · rename_i found hnode
      split at h
      · cases h
      · rename_i hslash
        cases h
        exact ⟨eq_false_of_ne_true hslash, place, ⟨directory, hparent, hplace⟩, hnode⟩
  · rintro ⟨hslash, place, ⟨directory, hparent, hplace⟩, hnode⟩
    refine ⟨directory, hparent, bind_eq_ok_iff.mpr ⟨place, hplace, ?_⟩⟩
    rw [hnode]
    simp only [hslash, Bool.false_eq_true, if_false]
    rfl

/-- What a write needs, and where it puts the file. -/
theorem write_eq_ok_iff {fs fs' : FileSystem} {path : String} {content : Bytes} :
    fs.write path content = .ok fs' ↔ endsInSlash path = false ∧
      ∃ place, fs.LeadsTo path place ∧ fs.node? place ≠ some .directory ∧
        fs.replace place (.file content) = fs' := by
  rw [write, bind_eq_ok_iff]
  constructor
  · rintro ⟨directory, hparent, h⟩
    cases hslash : endsInSlash path with
    | true =>
        rw [if_pos hslash] at h
        cases h
    | false =>
        rw [if_neg (by rw [hslash]; exact Bool.false_ne_true)] at h
        obtain ⟨place, hplace, h⟩ := bind_eq_ok_iff.mp h
        refine ⟨rfl, place, ⟨directory, hparent, hplace⟩, ?_⟩
        split at h
        · cases h
        · rename_i hnode
          exact ⟨hnode, Except.ok.inj h⟩
  · rintro ⟨hslash, place, ⟨directory, hparent, hplace⟩, hnode, rfl⟩
    refine ⟨directory, hparent, ?_⟩
    rw [if_neg (by rw [hslash]; exact Bool.false_ne_true)]
    refine bind_eq_ok_iff.mpr ⟨place, hplace, ?_⟩
    split
    · rename_i hdirectory
      exact absurd hdirectory hnode
    · rfl

theorem Writable.exists_write {fs : FileSystem} {path : String} (h : fs.Writable path)
    (content : Bytes) : ∃ fs', fs.write path content = .ok fs' := by
  obtain ⟨hslash, place, hleads, hnode⟩ := h
  exact ⟨_, write_eq_ok_iff.mpr ⟨hslash, place, hleads, hnode, rfl⟩⟩

/-! ## Ways through a file system that was written to -/

section

variable {fs : FileSystem} {place : Place} (hplace : fs.node? place ≠ some .directory)
  (content : Bytes)

include hplace

/-- The root is a directory. -/
theorem ne_root_of_node? : place ≠ [] := by
  rintro rfl
  exact hplace rfl

/-- A file at a place where no directory stood changes no way over directories. -/
theorem enter_replace {directory target : Place} {names : List String} :
    (fs.replace place (.file content)).enter directory names = .ok target ↔
      fs.enter directory names = .ok target := by
  induction names generalizing directory with
  | nil => exact Iff.rfl
  | cons name names ih =>
      rw [enter, enter]
      cases step directory name with
      | error e => exact Iff.rfl
      | ok next =>
          simp only [node?_replace fs place next _ (ne_root_of_node? hplace)]
          by_cases hnext : next = place
          · -- neither the new file nor what stood there before is a directory
            rw [if_pos hnext, hnext]
            cases hnode : fs.node? place with
            | none =>
                constructor <;>
                · intro h
                  cases h
            | some node =>
                cases node with
                | file before => exact Iff.rfl
                | directory => exact absurd hnode hplace
          · rw [if_neg hnext]
            cases fs.node? next with
            | none => exact Iff.rfl
            | some node =>
                cases node with
                | file before => exact Iff.rfl
                | directory => exact ih

theorem parent_replace {path : String} {directory : Place} :
    (fs.replace place (.file content)).parent path = .ok directory ↔
      fs.parent path = .ok directory := by
  rw [parent, parent]
  split
  · exact Iff.rfl
  · split
    · exact Iff.rfl
    · split
      · exact Iff.rfl
      · exact enter_replace hplace content

theorem leadsTo_replace {path : String} {other : Place} :
    (fs.replace place (.file content)).LeadsTo path other ↔ fs.LeadsTo path other :=
  exists_congr fun _ => and_congr_left fun _ => parent_replace hplace content

end

/-- **A written file is read back.** -/
theorem read_of_write {fs fs' : FileSystem} {path : String} {content : Bytes}
    (h : fs.write path content = .ok fs') : fs'.read path = .ok content := by
  obtain ⟨hslash, place, hleads, hnode, rfl⟩ := write_eq_ok_iff.mp h
  refine read_eq_ok_iff.mpr ⟨hslash, place, (leadsTo_replace hnode content).mpr hleads, ?_⟩
  rw [node?_replace fs place place _ (ne_root_of_node? hnode), if_pos rfl]

theorem readText_of_write {fs fs' : FileSystem} {path text : String}
    (h : fs.write path (Text.utf8 text) = .ok fs') : fs'.readText path = .ok text := by
  rw [readText, read_of_write h]
  simp only [bind, Except.bind, Text.ofUtf8?_utf8]
  rfl

/-! ## What a write leaves alone -/

/-- Two file systems differ in nothing but the place to which a path leads: other places have the
nodes they had, and paths that lead elsewhere are read as before. -/
structure SameElsewhere (fs fs' : FileSystem) (path : String) : Prop where
  workingDirectory : fs'.workingDirectory = fs.workingDirectory
  node? {place other : Place} (hplace : fs.LeadsTo path place) (hne : other ≠ place) :
    fs'.node? other = fs.node? other
  read {place : Place} {other : String} (hplace : fs.LeadsTo path place)
    (hother : ¬fs.LeadsTo other place) (content : Bytes) :
    fs'.read other = .ok content ↔ fs.read other = .ok content

/-- **A write changes one place only.** -/
theorem sameElsewhere_of_write {fs fs' : FileSystem} {path : String} {content : Bytes}
    (h : fs.write path content = .ok fs') : fs.SameElsewhere fs' path := by
  obtain ⟨-, place, hleads, hnode, rfl⟩ := write_eq_ok_iff.mp h
  have hsame (other : Place) (hne : other ≠ place) :
      (fs.replace place (.file content)).node? other = fs.node? other := by
    rw [node?_replace fs place other _ (ne_root_of_node? hnode), if_neg hne]
  refine ⟨rfl, ?_, ?_⟩
  · intro place' other hplace hne
    cases hleads.eq hplace
    exact hsame other hne
  · intro place' other hplace hother found
    cases hleads.eq hplace
    rw [read_eq_ok_iff, read_eq_ok_iff]
    refine and_congr_right fun _ => exists_congr fun target => ?_
    rw [leadsTo_replace hnode]
    refine and_congr_right fun htarget => ?_
    have hne : target ≠ place := by
      rintro rfl
      exact hother htarget
    rw [hsame target hne]

end AgileSeal.FileSystem
