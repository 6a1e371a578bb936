set_option autoImplicit false

/-! # Tables by id

A table has at most one entry for each id and lists its entries in ascending order of ids.
Texts are ordered by code points, which is also the order of their UTF-8 bytes. Looking up
after an insertion finds what was inserted under the same id and what was there before under
any other (`get?_insert`).
-/

namespace AgileSeal

/-- A list of entries in strictly ascending order of their ids. -/
structure IdMap (α : Type) where
  entries : List (String × α)
  ascending : entries.Pairwise fun x y => x.1 < y.1

namespace IdMap

variable {α : Type}

/-- The table without entries. -/
def empty : IdMap α := ⟨[], .nil⟩

/-- Puts an entry at its place in an ascending list, over an entry with the same id. -/
def insertEntry (id : String) (a : α) : List (String × α) → List (String × α)
  | [] => [(id, a)]
  | (k, b) :: rest =>
    if id < k then (id, a) :: (k, b) :: rest
    else if id = k then (id, a) :: rest
    else (k, b) :: insertEntry id a rest

theorem mem_insertEntry (id : String) (a : α) (l : List (String × α)) (x : String × α)
    (h : x ∈ insertEntry id a l) : x = (id, a) ∨ x ∈ l := by
  induction l with
  | nil => simpa [insertEntry] using h
  | cons e rest ih =>
    obtain ⟨k, b⟩ := e
    simp only [insertEntry] at h
    split at h
    · simpa using h
    · split at h
      · simp only [List.mem_cons] at h ⊢
        exact h.imp_right .inr
      · simp only [List.mem_cons] at h ⊢
        rcases h with h | h
        · exact .inr (.inl h)
        · exact (ih h).imp_right .inr

theorem ascending_insertEntry (id : String) (a : α) (l : List (String × α))
    (h : l.Pairwise fun x y => x.1 < y.1) :
    (insertEntry id a l).Pairwise fun x y => x.1 < y.1 := by
  induction l with
  | nil => exact List.pairwise_singleton _ _
  | cons e rest ih =>
    obtain ⟨k, b⟩ := e
    obtain ⟨first, tail⟩ := List.pairwise_cons.1 h
    simp only [insertEntry]
    split
    · rename_i lt
      refine List.pairwise_cons.2 ⟨fun x hx => ?_, h⟩
      rcases List.mem_cons.1 hx with rfl | hx
      · exact lt
      · exact String.lt_trans lt (first x hx)
    · split
      · rename_i eq
        subst eq
        exact List.pairwise_cons.2 ⟨first, tail⟩
      · rename_i notLt ne
        refine List.pairwise_cons.2 ⟨fun x hx => ?_, ih tail⟩
        rcases mem_insertEntry id a rest x hx with rfl | hx
        · exact Std.lt_of_le_of_ne (String.not_lt.1 notLt) (fun e => ne e.symm)
        · exact first x hx

/-- Puts an entry into the table, over an entry with the same id. -/
def insert (m : IdMap α) (id : String) (a : α) : IdMap α :=
  ⟨insertEntry id a m.entries, ascending_insertEntry id a m.entries m.ascending⟩

/-- The entry of an id. -/
def get? (m : IdMap α) (id : String) : Option α :=
  (m.entries.find? fun e => e.1 = id).map (·.2)

/-- Whether the table has an entry for an id. -/
def contains (m : IdMap α) (id : String) : Bool := (m.get? id).isSome

/-- The ids of the table, in ascending order. -/
def ids (m : IdMap α) : List String := m.entries.map (·.1)

/-- The count of entries. -/
def size (m : IdMap α) : Nat := m.entries.length

theorem find?_insertEntry (id other : String) (a : α) (l : List (String × α))
    (h : l.Pairwise fun x y => x.1 < y.1) :
    ((insertEntry id a l).find? fun e => e.1 = other).map (·.2) =
      if other = id then some a else (l.find? fun e => e.1 = other).map (·.2) := by
  induction l with
  | nil =>
    by_cases eq : other = id
    · simp [insertEntry, eq]
    · simp [insertEntry, eq, Ne.symm eq]
  | cons e rest ih =>
    obtain ⟨k, b⟩ := e
    obtain ⟨-, tail⟩ := List.pairwise_cons.1 h
    simp only [insertEntry]
    split
    · by_cases eq : other = id
      · simp [eq]
      · simp [eq, Ne.symm eq]
    · split
      · rename_i same
        subst same
        by_cases eq : other = id
        · simp [eq]
        · simp [eq, Ne.symm eq]
      · rename_i ne
        by_cases eqk : k = other
        · subst eqk
          simp [Ne.symm ne]
        · simpa [List.find?_cons, eqk] using ih tail

/-- An insertion changes the entry of its own id and no other. -/
theorem get?_insert (m : IdMap α) (id other : String) (a : α) :
    (m.insert id a).get? other = if other = id then some a else m.get? other :=
  find?_insertEntry id other a m.entries m.ascending

theorem find?_of_mem {id : String} {a : α} {l : List (String × α)}
    (h : l.Pairwise fun x y => x.1 < y.1) (hmem : (id, a) ∈ l) :
    (l.find? fun e => e.1 = id) = some (id, a) := by
  induction l with
  | nil => cases hmem
  | cons e rest ih =>
    obtain ⟨first, tail⟩ := List.pairwise_cons.1 h
    rcases List.mem_cons.1 hmem with rfl | hrest
    · rw [List.find?_cons_of_pos (by simp)]
    · have hne : e.1 ≠ id := fun heq => String.lt_irrefl id (heq ▸ first (id, a) hrest)
      rw [List.find?_cons_of_neg (by simpa using hne)]
      exact ih tail hrest

/-- Looking up finds exactly the entries of the table. -/
theorem get?_eq_some_iff (m : IdMap α) (id : String) (a : α) :
    m.get? id = some a ↔ (id, a) ∈ m.entries := by
  rw [get?, Option.map_eq_some_iff]
  constructor
  · rintro ⟨⟨k, b⟩, hfind, rfl⟩
    have hk : k = id := by simpa using List.find?_some hfind
    rw [← hk]
    exact List.mem_of_find?_eq_some hfind
  · intro hmem
    exact ⟨(id, a), find?_of_mem m.ascending hmem, rfl⟩

@[simp] theorem get?_empty (id : String) : (empty : IdMap α).get? id = none := rfl

/-- Applies a function to every entry. -/
def map {β : Type} (m : IdMap α) (f : α → β) : IdMap β :=
  ⟨m.entries.map fun e => (e.1, f e.2),
    List.pairwise_map.2 (m.ascending.imp fun h => h)⟩

end IdMap

end AgileSeal
