import AgileSeal.Proofs.Json.RoundTrip

set_option autoImplicit false

/-! # Printed lists and tables are read back

A list is read back if each of its items is (`reads_list`). A table is read back if the value of
each of its entries is (`reads_table`): its entries are printed in the ascending order of their ids,
so each is new when it is read and is put behind those that have been read before
(`IdMap.insert_above`).
-/

namespace AgileSeal

/-! ## Growing tables -/

namespace IdMap

variable {α : Type}

theorem eq_of_entries_eq {m m' : IdMap α} (h : m.entries = m'.entries) : m = m' := by
  cases m
  cases m'
  cases h
  rfl

theorem insertEntry_above {id : String} {l : List (String × α)} (h : ∀ e ∈ l, e.1 < id) (a : α) :
    insertEntry id a l = l ++ [(id, a)] := by
  induction l with
  | nil => rfl
  | cons e rest ih =>
      obtain ⟨hfirst, hrest⟩ := List.forall_mem_cons.mp h
      have hne : id ≠ e.1 := fun heq => String.lt_irrefl id (heq ▸ hfirst)
      rw [insertEntry, if_neg (String.lt_asymm hfirst), if_neg hne, ih hrest, List.cons_append]

theorem isEmpty_insert (m : IdMap α) (id : String) (a : α) :
    (m.insert id a).entries.isEmpty = false := by
  show (insertEntry id a m.entries).isEmpty = false
  cases m.entries with
  | nil => rfl
  | cons e rest =>
      simp only [insertEntry]
      split
      · rfl
      · split <;> rfl

/-- An entry whose id is above all others comes last. -/
theorem insert_above {m : IdMap α} {id : String} (h : ∀ e ∈ m.entries, e.1 < id) (a : α) :
    (m.insert id a).entries = m.entries ++ [(id, a)] := insertEntry_above h a

theorem contains_above {m : IdMap α} {id : String} (h : ∀ e ∈ m.entries, e.1 < id) :
    m.contains id = false := by
  have hnone : (m.entries.find? fun e => e.1 = id) = none := by
    rw [List.find?_eq_none]
    intro e he
    have hne : e.1 ≠ id := fun heq => String.lt_irrefl id (heq ▸ h e he)
    simpa using hne
  rw [contains, get?, hnone]
  rfl

/-- If an entry follows others in a table, its id is above theirs. -/
theorem below_of_entries_eq {m : IdMap α} {before later : List (String × α)} {e : String × α}
    (h : m.entries = before ++ e :: later) : ∀ e' ∈ before, e'.1 < e.1 := by
  have hascending := m.ascending
  rw [h, List.pairwise_append] at hascending
  intro e' he'
  exact hascending.2.2 e' he' e List.mem_cons_self

end IdMap

namespace Json.Reader

open Printed

variable {α : Type}

/-! ## Lists -/

/-- What can be told from the closing bracket of a list by its first character. -/
def StartsItem (printed : List Char) : Prop :=
  ∃ c cs, printed = c :: cs ∧ isSpace c = false ∧ c ≠ ']'

theorem startsItem_quotedChars (s : String) : StartsItem (quotedChars s) :=
  ⟨'"', _, rfl, rfl, by decide⟩

/-- An item is found behind the comma that it needs. -/
theorem nextItem_item (first : Bool) (depth : Nat) {c : Char} (hc : isSpace c = false)
    (hopen : c ≠ ']') (cs : List Char) :
    nextItem first (comma first ++ (newLine depth ++ c :: cs)) = .ok (true, c :: cs) := by
  have hpeek := peek_append (isSpace_newLine depth) hc cs
  -- the case of the closing bracket is ruled out by `hopen`
  cases first with
  | true =>
      refine (bind_ok hpeek).trans ?_
      simp only [if_true]
      rfl
  | false =>
      have hcomma : peek (',' :: (newLine depth ++ c :: cs)) = .ok (some ',', _) :=
        peek_append (List.forall_mem_nil _) rfl _
      refine (bind_ok hcomma).trans ?_
      refine (bind_ok (x := advance) rfl).trans ?_
      refine (bind_ok hpeek).trans ?_
      simp only
      rfl

theorem nextItem_end (first : Bool) {ending rest : List Char} (h : Ends ending ']' rest) :
    nextItem first ending = .ok (false, ']' :: rest) := bind_ok h.peek

theorem endList_cons (rest : List Char) : endList (']' :: rest) = .ok ((), rest) :=
  bind_ok (peek_append (List.forall_mem_nil _) rfl rest)

/-- Printed items are read one after the other. The induction is on the items; the bound goes down
by one with each, and those that have been read are held in reverse. -/
theorem items_remaining {item : Reader α} {print : α → List Char} {depth : Nat}
    {ending rest : List Char} (hend : Ends ending ']' rest) {values : List α}
    (h : ∀ a ∈ values, Reads item (print a) a ∧ StartsItem (print a)) (read : List α)
    {bound : List Char} (hbound : values.length < bound.length) :
    items item bound read (remaining read.isEmpty depth (values.map print) ending)
      = .ok (read.reverse ++ values, ']' :: rest) := by
  induction values generalizing read bound with
  | nil =>
      obtain ⟨c, bound, rfl⟩ := List.exists_cons_of_length_pos hbound
      rw [items]
      refine (bind_ok (nextItem_end read.isEmpty hend)).trans ?_
      rw [List.append_nil]
      rfl
  | cons a values ih =>
      obtain ⟨c, bound, rfl⟩ := List.exists_cons_of_length_pos (Nat.zero_lt_of_lt hbound)
      obtain ⟨⟨hreads, d, ds, hstart, hspace, hopen⟩, hvalues⟩ := List.forall_mem_cons.mp h
      have hread := hreads [] _ (List.forall_mem_nil _)
        (delimited_remaining hend.delimited depth (values.map print))
      have hnext := nextItem_item read.isEmpty depth hspace hopen
        (ds ++ remaining false depth (values.map print) ending)
      have hrest := ih hvalues (a :: read) (Nat.lt_of_succ_lt_succ hbound)
      rw [List.reverse_cons, List.append_assoc] at hrest
      rw [List.map_cons, remaining_cons, hstart, items]
      refine (bind_ok hnext).trans ?_
      rw [hstart] at hread
      refine (bind_ok hread).trans ?_
      exact hrest

/-- **A list is read back** if its items are. -/
theorem reads_list {item : Reader α} {print : α → Printed} {values : List α} {depth : Nat}
    (h : ∀ a ∈ values, Reads item (print a (depth + 1)) a ∧ StartsItem (print a (depth + 1))) :
    Reads (list item) (Printed.list (values.map print) depth) values := by
  rw [Printed.list, List.map_map]
  refine reads_bracketed (by decide) fun space ending rest hspace hend hbound => ?_
  rw [List.length_map] at hbound
  rw [list, skipSpace_append hspace, skipSpace_cons rfl]
  refine (bind_ok (items_remaining hend h [] hbound)).trans ?_
  exact bind_ok (endList_cons rest)

/-! ## Tables -/

/-- Printed entries are read one after the other. The induction is on those that are still to
come, which with those of the table so far make up the whole table. -/
theorem entries_remaining {value : Reader α} (print : α → List Char) {depth : Nat}
    {ending rest : List Char} (hend : Ends ending '\x7d' rest) (kind : String) {m soFar : IdMap α}
    {later : List (String × α)} (hm : m.entries = soFar.entries ++ later)
    (h : ∀ e ∈ later, Reads value (print e.2) e.2) {bound : List Char}
    (hbound : later.length < bound.length) :
    entries kind value bound soFar (remaining soFar.entries.isEmpty depth
        (later.map fun e => printedField (e.1, print e.2)) ending) = .ok (m, rest) := by
  induction later generalizing soFar bound with
  | nil =>
      obtain ⟨c, bound, rfl⟩ := List.exists_cons_of_length_pos hbound
      obtain rfl : m = soFar := IdMap.eq_of_entries_eq (hm.trans (List.append_nil _))
      rw [entries]
      exact bind_ok (nextKey_end m.entries.isEmpty hend)
  | cons e later ih =>
      obtain ⟨c, bound, rfl⟩ := List.exists_cons_of_length_pos (Nat.zero_lt_of_lt hbound)
      obtain ⟨hreads, hlater⟩ := List.forall_mem_cons.mp h
      have hbelow := IdMap.below_of_entries_eq hm
      have hgrown := IdMap.insert_above hbelow e.2
      have hkey := nextKey_remaining soFar.entries.isEmpty depth (e.1, print e.2)
        (later.map fun e => printedField (e.1, print e.2)) ending
      have hvalue := hreads [' '] _ (List.forall_mem_singleton.mpr rfl)
        (delimited_remaining hend.delimited depth
          (later.map fun e => printedField (e.1, print e.2)))
      have hwhole : m.entries = (soFar.insert e.1 e.2).entries ++ later := by
        rw [hgrown, List.append_assoc]
        exact hm
      have hrest := ih hwhole hlater (Nat.lt_of_succ_lt_succ hbound)
      rw [IdMap.isEmpty_insert] at hrest
      rw [List.map_cons, entries]
      refine (bind_ok hkey).trans ?_
      refine (bind_ok (colon_cons _)).trans ?_
      refine (bind_ok hvalue).trans ?_
      rw [IdMap.contains_above hbelow]
      exact hrest

/-- **A table is read back** if the values of its entries are. -/
theorem reads_table {value : Reader α} {print : α → Printed} {m : IdMap α} {depth : Nat}
    (h : ∀ e ∈ m.entries, Reads value (print e.2 (depth + 1)) e.2) (expected kind : String) :
    Reads (table expected kind value) (object (m.entries.map fun e => (e.1, print e.2)) depth)
      m := by
  rw [object_eq_bracketed, List.map_map, List.map_map]
  refine reads_bracketed (by decide) fun space ending rest hspace hend hbound => ?_
  rw [List.length_map] at hbound
  rw [table, skipSpace_append hspace, skipSpace_cons rfl]
  exact entries_remaining (fun a => print a (depth + 1)) hend kind (.refl m.entries) h hbound

end Json.Reader

end AgileSeal
