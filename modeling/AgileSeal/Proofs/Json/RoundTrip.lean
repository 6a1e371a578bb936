import AgileSeal.Proofs.Json.Tokens

set_option autoImplicit false

/-! # Printed objects are read back

A reader reads a value back (`Reads`) if it finds it where it was printed and takes exactly what was
printed, whatever stands behind it that may stand behind a value. Strings are read back whatever
characters they have (`reads_text`). An object is read back field by field, at any depth: if a
record takes the printed fields one after the other (`Shape.Takes`) and none is missing at the end,
the object is read back as what the record has become (`reads_record`).
-/

namespace AgileSeal.Json

open Printed

/-! ## White space -/

theorem isSpace_newLine (depth : Nat) : ∀ c ∈ newLine depth, isSpace c = true := by
  intro c hc
  rcases List.mem_cons.mp hc with rfl | hc
  · rfl
  · rw [List.eq_of_mem_replicate hc]
    rfl

namespace Reader

variable {α β σ : Type}

/-! ## Values -/

/-- What may stand behind a value: nothing, a comma, a line break or a closing bracket. -/
def Delimited (rest : List Char) : Prop := ∀ c ∈ rest.head?, c ∈ [',', '\n', ']', '\x7d']

theorem delimited_nil : Delimited [] := by
  intro c hc
  cases hc

theorem delimited_cons {c : Char} (h : c ∈ [',', '\n', ']', '\x7d']) (cs : List Char) :
    Delimited (c :: cs) := by
  intro d hd
  cases hd
  exact h

/-- A value is read back, with or without white space before it, and nothing behind it is
taken. -/
def Reads (read : Reader α) (printed : List Char) (a : α) : Prop :=
  ∀ space rest, (∀ c ∈ space, isSpace c = true) → Delimited rest →
    read (space ++ (printed ++ rest)) = .ok (a, rest)

theorem Reads.map {read : Reader α} {printed : List Char} {a : α} (h : Reads read printed a)
    (f : α → β) : Reads (do return f (← read)) printed (f a) := by
  intro space rest hspace hrest
  exact bind_ok (h space rest hspace hrest)

theorem text_quotedChars (s : String) {space : List Char} (hspace : ∀ c ∈ space, isSpace c = true)
    (rest : List Char) : text (space ++ (quotedChars s ++ rest)) = .ok (s, rest) := by
  have happend : quotedChars s ++ rest
      = '"' :: (s.toList.flatMap escaped ++ '"' :: rest) := by
    rw [quotedChars, List.append_assoc]
    rfl
  rw [happend]
  exact text_spelled (spells_escaped s.toList) hspace rest

theorem reads_text (s : String) : Reads text (quotedChars s) s := by
  intro space rest hspace _
  exact text_quotedChars s hspace rest

theorem reads_optional_text (s : String) : Reads (optional text) (quotedChars s) (some s) := by
  intro space rest hspace _
  have hskip : skipSpace (space ++ (quotedChars s ++ rest)) = quotedChars s ++ rest := by
    rw [skipSpace_append hspace]
    exact skipSpace_cons rfl _
  rw [optional, hskip]
  exact map_ok (text_quotedChars s (List.forall_mem_nil _) rest)

/-! ## Brackets -/

/-- The comma before an item that is not the first. -/
def comma (first : Bool) : List Char := if first then [] else [',']

/-- The items that are still to come, each on a line of its own, and what ends the bracket. -/
def remaining (first : Bool) (depth : Nat) : List (List Char) → List Char → List Char
  | [], ending => ending
  | item :: items, ending => comma first ++ (lines depth (item :: items) ++ ending)

theorem remaining_cons (first : Bool) (depth : Nat) (item : List Char) (items : List (List Char))
    (ending : List Char) : remaining first depth (item :: items) ending
      = comma first ++ (newLine depth ++ (item ++ remaining false depth items ending)) := by
  rw [remaining]
  cases items with
  | nil => rw [lines, List.append_assoc, remaining]
  | cons next items =>
      rw [lines, List.append_assoc, List.append_assoc]
      · rfl
      · exact fun h => List.cons_ne_nil _ _ h

/-- A value may stand before the items that are still to come. -/
theorem delimited_remaining {ending : List Char} (h : Delimited ending) (depth : Nat)
    (items : List (List Char)) : Delimited (remaining false depth items ending) := by
  cases items with
  | nil => exact h
  | cons item items =>
      rw [remaining_cons]
      exact delimited_cons (by decide) _

/-- There is a character at least for each item and for what ends the bracket. -/
theorem length_lt_length_remaining {ending : List Char} (h : 0 < ending.length) (first : Bool)
    (depth : Nat) (items : List (List Char)) :
    items.length < (remaining first depth items ending).length := by
  induction items generalizing first with
  | nil => exact h
  | cons item items ih =>
      have hrest := ih false
      have hline : (newLine depth).length = 2 * depth + 1 := by
        rw [newLine, List.length_cons, List.length_replicate]
      rw [remaining_cons, List.length_cons, List.length_append, List.length_append,
        List.length_append]
      omega

/-- A bracket ends with its closing character, with or without white space before it. -/
structure Ends (ending : List Char) (closing : Char) (rest : List Char) : Prop where
  skipped : skipSpace ending = closing :: rest
  delimited : Delimited ending

/-- The text of a bracket: its opening character, its items and its end. -/
theorem bracketed_append (opening closing : Char)
    (hclosing : isSpace closing = false ∧ closing ∈ [',', '\n', ']', '\x7d'])
    (items : List (List Char)) (depth : Nat) (rest : List Char) :
    ∃ ending, Ends ending closing rest ∧ bracketed opening closing items depth ++ rest
      = opening :: remaining true (depth + 1) items ending := by
  cases items with
  | nil =>
      exact ⟨closing :: rest, ⟨skipSpace_cons hclosing.1 rest, delimited_cons hclosing.2 rest⟩, rfl⟩
  | cons item items =>
      refine ⟨newLine depth ++ closing :: rest, ⟨?_, delimited_cons (by decide) _⟩, ?_⟩
      · rw [skipSpace_append (isSpace_newLine depth), skipSpace_cons hclosing.1]
      · show opening :: (lines (depth + 1) (item :: items) ++ newLine depth ++ [closing] ++ rest)
          = opening :: (lines (depth + 1) (item :: items) ++ (newLine depth ++ closing :: rest))
        rw [List.append_assoc, List.append_assoc]
        rfl

theorem Ends.length_pos {ending rest : List Char} {closing : Char} (h : Ends ending closing rest) :
    0 < ending.length := by
  cases ending with
  | nil => cases h.skipped
  | cons c cs => exact Nat.succ_pos _

/-- A bracket is read back if its items are read, wherever it ends, by a reader that may count on a
character for each of them. -/
theorem reads_bracketed {read : Reader α} {opening closing : Char}
    (hclosing : isSpace closing = false ∧ closing ∈ [',', '\n', ']', '\x7d'])
    {items : List (List Char)} {depth : Nat} {a : α}
    (h : ∀ space ending rest, (∀ c ∈ space, isSpace c = true) → Ends ending closing rest →
      items.length < (remaining true (depth + 1) items ending).length →
      read (space ++ opening :: remaining true (depth + 1) items ending) = .ok (a, rest)) :
    Reads read (bracketed opening closing items depth) a := by
  intro space rest hspace _
  obtain ⟨ending, hend, htext⟩ := bracketed_append opening closing hclosing items depth rest
  rw [htext]
  exact h space ending rest hspace hend
    (length_lt_length_remaining hend.length_pos true (depth + 1) items)

/-! ## Keys -/

theorem Ends.peek {ending rest : List Char} {closing : Char} (h : Ends ending closing rest) :
    peek ending = .ok (some closing, closing :: rest) := by
  rw [Reader.peek, h.skipped]
  rfl

theorem colon_cons (cs : List Char) : colon (':' :: cs) = .ok ((), cs) :=
  colon_gap (List.forall_mem_nil _) cs

/-- What is printed before an item separates it from the one before. -/
theorem separator_comma (first : Bool) : Separator first (comma first) := by
  cases first with
  | true => exact .none
  | false => exact .comma (List.forall_mem_nil _)

theorem stringText_quotedChars (s : String) {space : List Char} (gap : Gap space) :
    StringText s (space ++ quotedChars s) := .mk gap (spells_escaped s.toList)

/-- The key of an item is found behind the comma that the item needs. -/
theorem nextKey_item (first : Bool) (depth : Nat) (key : String) (rest : List Char) :
    nextKey first (comma first ++ (newLine depth ++ (quotedChars key ++ rest)))
      = .ok (some key, rest) := by
  have hname := stringText_quotedChars key (isSpace_newLine depth)
  rw [← List.append_assoc (newLine depth)]
  exact nextKey_member (separator_comma first) hname rest

theorem nextKey_end (first : Bool) {ending rest : List Char} (h : Ends ending '\x7d' rest) :
    nextKey first ending = .ok (none, '\x7d' :: rest) := bind_ok h.peek

/-! ## Fields -/

/-- A record that has seen some fields takes printed ones, one after the other: each of them is
known, has not been seen, and is read back as part of the record. -/
inductive Shape.Takes (shape : Shape σ) :
    List String → σ → List (String × List Char) → List String → σ → Prop
  | nil (seen : List String) (record : σ) : Takes shape seen record [] seen record
  | cons {seen seen' : List String} {record next record' : σ} {name : String}
      {printed : List Char} {fields : List (String × List Char)} {field : Field σ}
      (known : shape.fields.find? (fun f => f.name = name) = some field)
      (fresh : name ∉ seen) (reads : Reads (field.store record) printed next)
      (rest : Takes shape (name :: seen) next fields seen' record') :
      Takes shape seen record ((name, printed) :: fields) seen' record'

theorem Shape.Takes.append {shape : Shape σ} {seen seen' seen'' : List String}
    {record record' record'' : σ} {fields fields' : List (String × List Char)}
    (h : shape.Takes seen record fields seen' record')
    (h' : shape.Takes seen' record' fields' seen'' record'') :
    shape.Takes seen record (fields ++ fields') seen'' record'' := by
  induction h with
  | nil => exact h'
  | cons known fresh reads _ ih => exact .cons known fresh reads (ih h')

/-- A text that is there is taken, and one that is missing is not missed. -/
theorem Shape.takes_optional_text {shape : Shape σ} {name : String}
    (store : σ → Option String → σ)
    (known : shape.fields.find? (fun field => field.name = name) = some ⟨name, false, fun r => do
      return store r (← optional text)⟩)
    {seen : List String} (fresh : name ∉ seen) {record : σ} (hnone : store record none = record)
    (value : Option String) (depth : Nat) :
    shape.Takes seen record (((value.map fun s => (name, Printed.text s)).toList).map
        fun field => (field.1, field.2 depth))
      (if value.isSome then name :: seen else seen) (store record value) := by
  cases value with
  | none =>
      rw [hnone]
      exact .nil _ _
  | some s => exact .cons known fresh ((reads_optional_text s).map _) (.nil _ _)

/-- How a field is printed. -/
def printedField (field : String × List Char) : List Char :=
  quotedChars field.1 ++ [':', ' '] ++ field.2

/-- The key of a field is found, and the colon and the value stand behind it. -/
theorem nextKey_remaining (first : Bool) (depth : Nat) (field : String × List Char)
    (items : List (List Char)) (ending : List Char) :
    nextKey first (remaining first depth (printedField field :: items) ending)
      = .ok (some field.1, ':' :: ' ' :: (field.2 ++ remaining false depth items ending)) := by
  rw [remaining_cons, printedField, List.append_assoc, List.append_assoc]
  exact nextKey_item first depth field.1 _

theorem Shape.field_of_known {shape : Shape σ} {seen : List String} {record next : σ}
    {name : String} {printed : List Char} {field : Field σ}
    (known : shape.fields.find? (fun f => f.name = name) = some field)
    (fresh : name ∉ seen) (reads : Reads (field.store record) printed next) {rest : List Char}
    (hrest : Delimited rest) :
    shape.field seen record name (':' :: ' ' :: (printed ++ rest)) = .ok (next, rest) := by
  have hfresh : ¬seen.contains name = true := by
    rwa [List.contains_iff_mem]
  rw [Shape.field, known]
  simp only [if_neg hfresh]
  refine (bind_ok (colon_cons (' ' :: (printed ++ rest)))).trans ?_
  exact reads [' '] rest (List.forall_mem_singleton.mpr rfl) hrest

/-- Once all fields are there, the closing bracket ends the record. -/
theorem Shape.byName_end {shape : Shape σ} {seen : List String} {record : σ} {bound : List Char}
    (hbound : 0 < bound.length)
    (hcomplete : shape.fields.find? (fun f => f.required && !seen.contains f.name) = none)
    {ending rest : List Char} (hend : Ends ending '\x7d' rest) :
    shape.byName bound seen record ending = .ok (record, rest) := by
  obtain ⟨c, bound, rfl⟩ := List.exists_cons_of_length_pos hbound
  have hcheck : shape.checkComplete seen ('\x7d' :: rest) = .ok ((), '\x7d' :: rest) := by
    rw [checkComplete, hcomplete]
    rfl
  rw [byName]
  refine (bind_ok (nextKey_end seen.isEmpty hend)).trans ?_
  refine (bind_ok hcheck).trans ?_
  rfl

/-- Printed fields are read one after the other. The induction is on the fields; the bound goes
down by one with each, and there is text enough for all. -/
theorem Shape.byName_of_takes {shape : Shape σ} {seen seen' : List String} {record record' : σ}
    {fields : List (String × List Char)} (h : shape.Takes seen record fields seen' record')
    {bound : List Char} (hbound : fields.length < bound.length)
    (hcomplete : shape.fields.find? (fun f => f.required && !seen'.contains f.name) = none)
    (depth : Nat) {ending rest : List Char} (hend : Ends ending '\x7d' rest) :
    shape.byName bound seen record
        (remaining seen.isEmpty depth (fields.map printedField) ending)
      = .ok (record', rest) := by
  induction h generalizing bound with
  | nil seen record => exact byName_end hbound hcomplete hend
  | @cons seen seen' record next record' name printed fields field known fresh reads _ ih =>
      obtain ⟨c, bound, rfl⟩ := List.exists_cons_of_length_pos (Nat.zero_lt_of_lt hbound)
      have hkey := nextKey_remaining seen.isEmpty depth (name, printed)
        (fields.map printedField) ending
      have hrest := ih (Nat.lt_of_succ_lt_succ hbound) hcomplete
      rw [byName, List.map_cons]
      refine (bind_ok hkey).trans ?_
      refine (bind_ok (field_of_known known fresh reads
        (delimited_remaining hend.delimited depth _))).trans ?_
      exact hrest

theorem object_eq_bracketed (fields : List (String × Printed)) (depth : Nat) :
    object fields depth = bracketed '\x7b' '\x7d'
      ((fields.map fun f => (f.1, f.2 (depth + 1))).map printedField) depth := by
  rw [object, List.map_map]
  rfl

/-- **An object is read back** as a record if its fields are taken and none is missing. -/
theorem reads_record {shape : Shape σ} {fields : List (String × Printed)} {depth : Nat}
    {seen : List String} {result : σ}
    (htakes : shape.Takes [] shape.start (fields.map fun f => (f.1, f.2 (depth + 1))) seen result)
    (hcomplete : shape.fields.find? (fun f => f.required && !seen.contains f.name) = none) :
    Reads (record shape) (object fields depth) result := by
  rw [object_eq_bracketed]
  refine reads_bracketed (by decide) fun space ending rest hspace hend hbound => ?_
  rw [List.length_map] at hbound
  rw [record, skipSpace_append hspace, skipSpace_cons rfl]
  exact Shape.byName_of_takes htakes hbound hcomplete (depth + 1) hend

/-! ## Documents -/

/-- A value that is read back is read back from a document of its own. -/
theorem document_of_reads {read : Reader α} {p : Printed} {a : α} (h : Reads read (p 0) a) :
    document read (Printed.document p) = .ok a := by
  have hread := h [] [] (List.forall_mem_nil _) delimited_nil
  rw [List.nil_append, List.append_nil] at hread
  rw [document, Printed.document, String.toList_ofList, hread]
  rfl

end Reader

end AgileSeal.Json
