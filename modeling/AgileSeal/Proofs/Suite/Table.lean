import AgileSeal.Suite.Table

set_option autoImplicit false

/-! # Building tables of suites

A table is built by adding one entry after the other (`SuiteTable.build`). If no id is repeated the
table has the entries of the list and no others; otherwise the first id that is repeated stops the
building (`SuiteTable.build_cases`). No entry ever takes the place of another.

The induction is on the list, for tables that have entries already: a list of entries can be put into
a table (`IdMap.Admits`) if the first one can, and the others can be put into the table with it.
-/

namespace AgileSeal

/-! ## Putting entries into a table -/

namespace IdMap

variable {α : Type} {t : IdMap α} {id : String} {a : α}

theorem contains_insert_iff {other : String} :
    (t.insert id a).contains other = true ↔ other = id ∨ t.contains other = true := by
  rw [contains, get?_insert]
  by_cases h : other = id
  · rw [if_pos h]
    exact iff_of_true rfl (.inl h)
  · rw [if_neg h, or_iff_right h, contains]

/-- A new entry is there besides those that were there before. -/
theorem get?_insert_eq_some_iff (hnew : t.contains id = false) {other : String} {b : α} :
    (t.insert id a).get? other = some b ↔ (other, b) = (id, a) ∨ t.get? other = some b := by
  rw [get?_insert, Prod.mk.injEq]
  by_cases h : other = id
  · have hnone : t.get? other = none := by
      rw [contains, Option.isSome_eq_false_iff, Option.isNone_iff_eq_none] at hnew
      rw [h, hnew]
    rw [if_pos h, hnone, and_iff_right h, Option.some_inj, eq_comm]
    exact (or_iff_left (Option.some_ne_none b ∘ Eq.symm)).symm
  · rw [if_neg h, or_iff_right fun hsame => h hsame.1]

/-- Entries that can all be put into a table: their ids differ, and none of them is there. -/
def Admits (t : IdMap α) (entries : List (String × α)) : Prop :=
  (entries.map Prod.fst).Nodup ∧ ∀ e ∈ entries, t.contains e.1 = false

/-- The first id that cannot be put into a table because it is there already, or has been put there
by one of the entries before. -/
def FirstRepeated (t : IdMap α) (entries : List (String × α)) (id : String) : Prop :=
  ∃ before a after, entries = before ++ (id, a) :: after ∧ t.Admits before ∧
    (t.contains id = true ∨ id ∈ before.map Prod.fst)

theorem admits_cons_iff {e : String × α} {entries : List (String × α)} :
    t.Admits (e :: entries) ↔
      t.contains e.1 = false ∧ (t.insert e.1 e.2).Admits entries := by
  have hfresh (e' : String × α) : (t.insert e.1 e.2).contains e'.1 = false ↔
      e'.1 ≠ e.1 ∧ t.contains e'.1 = false := by
    rw [← Bool.not_eq_true, contains_insert_iff, not_or, Bool.not_eq_true]
  simp only [Admits, List.map_cons, List.nodup_cons, List.forall_mem_cons, hfresh, List.mem_map,
    not_exists, not_and, forall_and]
  constructor
  · rintro ⟨⟨hnew, hnodup⟩, hfirst, hrest⟩
    exact ⟨hfirst, hnodup, hnew, hrest⟩
  · rintro ⟨hfirst, hnodup, hnew, hrest⟩
    exact ⟨⟨hnew, hnodup⟩, hfirst, hrest⟩

theorem FirstRepeated.cons {e : String × α} (hnew : t.contains e.1 = false)
    {entries : List (String × α)} {id : String}
    (h : (t.insert e.1 e.2).FirstRepeated entries id) : t.FirstRepeated (e :: entries) id := by
  obtain ⟨before, a, after, rfl, hadmits, hthere⟩ := h
  refine ⟨e :: before, a, after, rfl, admits_cons_iff.mpr ⟨hnew, hadmits⟩, ?_⟩
  rw [contains_insert_iff, or_assoc] at hthere
  rcases hthere with rfl | hthere | hbefore
  · exact .inr List.mem_cons_self
  · exact .inl hthere
  · exact .inr (List.mem_cons_of_mem _ hbefore)

end IdMap

/-! ## Adding suites -/

namespace SuiteTable

/-- The table that holds the entries of a list, added one after the other. -/
def build (entries : List (String × SuiteNames)) : Except Error SuiteTable :=
  entries.foldlM (fun t e => t.add e.1 e.2) IdMap.empty

/-- **Entries are added, or one of them is there already.** The induction is on the entries; each of
them either stops the building or is in the table that the next one is added to. -/
theorem added_or_repeated {entries : List (String × SuiteNames)} (hids : ∀ e ∈ entries, e.1 ≠ "")
    (t : SuiteTable) :
    (t.Admits entries ∧ ∃ t', entries.foldlM (fun t e => t.add e.1 e.2) t = .ok t' ∧
      ∀ id names, t'.get? id = some names ↔ (id, names) ∈ entries ∨ t.get? id = some names) ∨
    ∃ id, t.FirstRepeated entries id ∧ entries.foldlM (fun t e => t.add e.1 e.2) t
      = .error (.configuration (TableProblem.duplicateId id).message) := by
  induction entries generalizing t with
  | nil =>
      refine .inl ⟨⟨List.nodup_nil, List.forall_mem_nil _⟩, t, rfl, fun id names => ?_⟩
      exact (or_iff_right List.not_mem_nil).symm
  | cons e entries ih =>
      obtain ⟨hid, hids⟩ := List.forall_mem_cons.mp hids
      rw [List.foldlM_cons, add, if_neg hid]
      cases hthere : t.contains e.1 with
      -- the first entry itself is the repeated one: nothing of the list stands before it
      | true => exact .inr ⟨e.1, ⟨[], e.2, entries, rfl, ⟨List.nodup_nil, List.forall_mem_nil _⟩,
          .inl hthere⟩, rfl⟩
      | false =>
          rcases ih hids (t.insert e.1 e.2) with ⟨hadmits, t', hadded, hget⟩ | ⟨id, hfirst, hstop⟩
          · refine .inl ⟨IdMap.admits_cons_iff.mpr ⟨hthere, hadmits⟩, t', hadded,
              fun id names => ?_⟩
            rw [hget, IdMap.get?_insert_eq_some_iff hthere, List.mem_cons, or_left_comm, or_assoc]
          · exact .inr ⟨id, hfirst.cons hthere, hstop⟩

/-- The first id of a list that has been there before. -/
def FirstRepeated (entries : List (String × SuiteNames)) (id : String) : Prop :=
  ∃ before names after, entries = before ++ (id, names) :: after ∧
    (before.map Prod.fst).Nodup ∧ id ∈ before.map Prod.fst

theorem FirstRepeated.not_nodup {entries : List (String × SuiteNames)} {id : String}
    (h : FirstRepeated entries id) : ¬(entries.map Prod.fst).Nodup := by
  obtain ⟨before, names, after, rfl, -, hbefore⟩ := h
  rw [List.map_append, List.nodup_append]
  rintro ⟨-, -, hapart⟩
  exact hapart id hbefore id List.mem_cons_self rfl

/-- **A table is built from entries with different ids**, and holds these entries. The first id that
is repeated stops the building. -/
theorem build_cases {entries : List (String × SuiteNames)} (hids : ∀ e ∈ entries, e.1 ≠ "") :
    ((entries.map Prod.fst).Nodup ∧ ∃ t, build entries = .ok t ∧
      ∀ id names, t.get? id = some names ↔ (id, names) ∈ entries) ∨
    ∃ id, FirstRepeated entries id ∧
      build entries = .error (.configuration (TableProblem.duplicateId id).message) := by
  rcases added_or_repeated hids IdMap.empty with ⟨hadmits, t, hbuilt, hget⟩ | ⟨id, hfirst, hstop⟩
  · refine .inl ⟨hadmits.1, t, hbuilt, fun id names => ?_⟩
    rw [hget, IdMap.get?_empty]
    exact or_iff_left (Option.some_ne_none names ∘ Eq.symm)
  · obtain ⟨before, names, after, hentries, hadmits, hthere⟩ := hfirst
    exact .inr ⟨id, ⟨before, names, after, hentries, hadmits.1,
      hthere.resolve_left Bool.false_ne_true⟩, hstop⟩

/-- A table can be built if and only if no id is repeated. -/
theorem exists_build_iff {entries : List (String × SuiteNames)} (hids : ∀ e ∈ entries, e.1 ≠ "") :
    (∃ t, build entries = .ok t) ↔ (entries.map Prod.fst).Nodup := by
  rcases build_cases hids with ⟨hnodup, t, hbuilt, -⟩ | ⟨id, hfirst, hstop⟩
  · exact iff_of_true ⟨t, hbuilt⟩ hnodup
  · refine iff_of_false ?_ hfirst.not_nodup
    rintro ⟨t, hbuilt⟩
    rw [hstop] at hbuilt
    cases hbuilt

end SuiteTable

end AgileSeal
