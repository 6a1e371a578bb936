import AgileSeal.Proofs.Json.Collections

set_option autoImplicit false

/-! # Objects are read however they are written

An object lists its members in some order, with white space between all tokens and with keys in any
of their spellings (`ObjectText`). What a reader makes of a text may depend on nothing that stands
behind it (`Gives`), and it may also be a problem. Then what is made of an object follows from what
is made of its members, one after the other: a record is changed by each of them (`gives_record`),
and a table has one entry more after each, as long as their ids differ (`gives_table`). The first
problem is the one that is reported.
-/

namespace AgileSeal.Json

/-! ## How objects are written -/

/-- A document that holds one of the texts of a value and white space. -/
def DocumentOf (Text : List Char → Prop) (s : String) : Prop :=
  ∃ text space, Text text ∧ Gap space ∧ s.toList = text ++ space

section

variable {κ : Type} (key : κ → String) (Value : κ → List Char → Prop)

/-- Members from the first or from a later one on, each with its key and a text of its value, and
the closing bracket. -/
inductive MembersText : Bool → List κ → List Char → Prop
  | close {first : Bool} {space : List Char} (gap : Gap space) :
    MembersText first [] (space ++ ['\x7d'])
  | member {first : Bool} {m : κ} {members : List κ} {separator name space value rest : List Char}
    (separated : Separator first separator) (named : StringText (key m) name) (gap : Gap space)
    (valued : Value m value) (others : MembersText false members rest) :
    MembersText first (m :: members) (separator ++ (name ++ (space ++ ':' :: (value ++ rest))))

/-- **An object** with members in their order, behind white space. -/
inductive ObjectText : List κ → List Char → Prop
  | mk {members : List κ} {space body : List Char} (gap : Gap space)
    (listed : MembersText key Value true members body) :
    ObjectText members (space ++ '\x7b' :: body)

variable {key} {Value}

/-- Objects may be moved to the right. -/
theorem ObjectText.moved {members : List κ} {text : List Char}
    (h : ObjectText key Value members text) {space : List Char} (gap : Gap space) :
    ObjectText key Value members (space ++ text) := by
  obtain @⟨before, body, gap', listed⟩ := h
  rw [← List.append_assoc]
  exact .mk (List.forall_mem_append.mpr ⟨gap, gap'⟩) listed

theorem MembersText.map {κ' : Type} {key' : κ' → String} {Value' : κ' → List Char → Prop}
    {f : κ → κ'} (hkey : ∀ m, key' (f m) = key m)
    (hvalue : ∀ m text, Value m text → Value' (f m) text) {first : Bool} {members : List κ}
    {text : List Char} (h : MembersText key Value first members text) :
    MembersText key' Value' first (members.map f) text := by
  induction h with
  | close gap => exact .close gap
  | @member first m _ _ _ _ _ _ separated named gap valued others ih =>
      exact .member separated (hkey m ▸ named) gap (hvalue m _ valued) ih

/-- Members may be taken for others with the same keys. -/
theorem ObjectText.map {κ' : Type} {key' : κ' → String} {Value' : κ' → List Char → Prop}
    {f : κ → κ'} (hkey : ∀ m, key' (f m) = key m)
    (hvalue : ∀ m text, Value m text → Value' (f m) text) {members : List κ} {text : List Char}
    (h : ObjectText key Value members text) : ObjectText key' Value' (members.map f) text := by
  obtain @⟨space, body, gap, listed⟩ := h
  exact .mk gap (listed.map hkey hvalue)

/-- There is a character at least for each member and for the bracket. -/
theorem MembersText.length_lt {first : Bool} {members : List κ} {text : List Char}
    (h : MembersText key Value first members text) : members.length < text.length := by
  induction h with
  | close gap =>
      rw [List.length_append]
      exact Nat.lt_add_left _ Nat.one_pos
  | member separated named gap valued others ih =>
      simp only [List.length_append, List.length_cons]
      omega

end

namespace Reader

variable {α β σ κ : Type}

/-! ## What a reader makes of a text -/

/-- What a reader makes of a text, whatever stands behind it. -/
def Gives (read : Reader α) (text : List Char) (result : Except Problem α) : Prop :=
  ∀ rest, read (text ++ rest) = result.map fun a => (a, rest)

theorem Gives.map {read : Reader α} {text : List Char} {result : Except Problem α}
    (h : Gives read text result) (f : α → β) :
    Gives (do return f (← read)) text (result.map f) := by
  intro rest
  have hread := h rest
  cases result with
  | error problem => exact bind_error hread
  | ok a => exact bind_ok hread

theorem gives_text {s : String} {written : List Char} (h : StringText s written) :
    Gives text written (.ok s) := by
  obtain @⟨space, spelling, gap, spelled⟩ := h
  intro rest
  rw [List.append_assoc, List.cons_append, List.append_assoc]
  exact text_spelled spelled gap rest

theorem gives_optional_text {s : String} {written : List Char} (h : StringText s written) :
    Gives (optional text) written (.ok (some s)) := by
  obtain @⟨space, spelling, gap, spelled⟩ := h
  intro rest
  rw [List.append_assoc, List.cons_append, List.append_assoc, optional, skipSpace_append gap,
    skipSpace_cons rfl]
  exact map_ok (text_spelled spelled (List.forall_mem_nil _) rest)

theorem gives_null {space : List Char} (gap : Gap space) (value : Reader α) :
    Gives (optional value) (space ++ ['n', 'u', 'l', 'l']) (.ok none) := by
  intro rest
  rw [List.append_assoc, optional, skipSpace_append gap]
  rfl

/-- What a reader makes of all texts of a value, it makes of documents that hold the value. -/
theorem document_of_gives {read : Reader α} {Text : List Char → Prop} {result : Except Problem α}
    (h : ∀ text, Text text → Gives read text result) {s : String} (hs : DocumentOf Text s) :
    document read s = result := by
  obtain ⟨text, space, htext, gap, happend⟩ := hs
  have hend : skipSpace space = [] := by
    rw [← List.append_nil space, skipSpace_append gap]
    rfl
  rw [document, happend, h text htext space]
  cases result with
  | error problem => rfl
  | ok a => exact if_pos hend

/-! ## Records -/

section

variable {key : κ → String} {Value : κ → List Char → Prop} {shape : Shape σ}

/-- What the text of a member makes of a record: it is read as the value of a known field. -/
def Shape.Effect (shape : Shape σ) (name : String) (text : List Char)
    (effect : σ → Except Problem σ) : Prop :=
  ∃ field, shape.fields.find? (fun f => f.name = name) = some field ∧
    ∀ record, Gives (field.store record) text (effect record)

/-- A member that has not been seen has its effect. -/
theorem Shape.field_member {name : String} {value : List Char} {effect : σ → Except Problem σ}
    (heffect : shape.Effect name value effect) {seen : List String} (fresh : name ∉ seen)
    {space : List Char} (gap : Gap space) (record : σ) (rest : List Char) :
    shape.field seen record name (space ++ ':' :: (value ++ rest))
      = (effect record).map fun record => (record, rest) := by
  obtain ⟨field, known, hgives⟩ := heffect
  have hfresh : ¬seen.contains name = true := by
    rwa [List.contains_iff_mem]
  rw [Shape.field, known]
  simp only [if_neg hfresh]
  refine (bind_ok (colon_gap gap _)).trans ?_
  exact hgives record rest

/-- No required field is missing. -/
theorem Shape.checkComplete_ok {seen : List String}
    (h : ∀ field ∈ shape.fields, field.required = true → field.name ∈ seen) (cs : List Char) :
    shape.checkComplete seen cs = .ok ((), cs) := by
  have hnone : shape.fields.find? (fun f => f.required && !seen.contains f.name) = none := by
    rw [List.find?_eq_none]
    intro field hfield hmissing
    rw [Bool.and_eq_true, Bool.not_eq_true', List.contains_eq_mem, decide_eq_false_iff_not]
      at hmissing
    exact hmissing.2 (h field hfield hmissing.1)
  rw [checkComplete, hnone]
  rfl

/-- Members have their effects one after the other. The induction is on the text; the bound goes
down by one with each member, and there is text enough for all. -/
theorem Shape.byName_members {effect : κ → σ → Except Problem σ} {first : Bool} {members : List κ}
    {text : List Char} (h : MembersText key Value first members text)
    (heffect : ∀ m text, Value m text → shape.Effect (key m) text (effect m))
    (hnodup : (members.map key).Nodup) {seen : List String} (hfirst : seen.isEmpty = first)
    (hfresh : ∀ m ∈ members, key m ∉ seen)
    (hcomplete : ∀ field ∈ shape.fields, field.required = true →
      field.name ∈ members.map key ∨ field.name ∈ seen)
    {bound : List Char} (hbound : members.length < bound.length) (record : σ) (rest : List Char) :
    shape.byName bound seen record (text ++ rest)
      = (members.foldlM (fun record m => effect m record) record).map fun record =>
        (record, rest) := by
  induction h generalizing seen bound record with
  | close gap =>
      obtain ⟨c, bound, rfl⟩ := List.exists_cons_of_length_pos hbound
      have hcheck := Shape.checkComplete_ok (fun field hfield hrequired =>
        (hcomplete field hfield hrequired).resolve_left (List.not_mem_nil)) ('\x7d' :: rest)
      rw [byName]
      refine (bind_ok (nextKey_close _ gap rest)).trans ?_
      exact bind_ok hcheck
  | @member first m members separator name space value text separated named gap valued others ih =>
      obtain ⟨c, bound, rfl⟩ := List.exists_cons_of_length_pos (Nat.zero_lt_of_lt hbound)
      obtain ⟨hnew, hnodup⟩ := List.nodup_cons.mp hnodup
      obtain ⟨hfresh, hfreshs⟩ := List.forall_mem_cons.mp hfresh
      have hkey := nextKey_member separated named (space ++ ':' :: (value ++ (text ++ rest)))
      have hfield := Shape.field_member (heffect m value valued) hfresh gap record (text ++ rest)
      have happend : separator ++ (name ++ (space ++ ':' :: (value ++ text))) ++ rest
          = separator ++ (name ++ (space ++ ':' :: (value ++ (text ++ rest)))) := by simp
      rw [happend, byName, hfirst, List.foldlM_cons]
      refine (bind_ok hkey).trans ?_
      -- a problem ends the object; otherwise the key counts as seen from here on
      cases hresult : effect m record with
      | error problem =>
          rw [hresult] at hfield
          exact bind_error hfield
      | ok next =>
          rw [hresult] at hfield
          refine (bind_ok hfield).trans ?_
          refine ih hnodup rfl (fun m' hm' hseen => ?_) (fun field hf hrequired => ?_)
            (Nat.lt_of_succ_lt_succ hbound) next
          · rcases List.mem_cons.mp hseen with heq | hseen
            · exact hnew (heq ▸ List.mem_map_of_mem hm')
            · exact hfreshs m' hm' hseen
          · rcases hcomplete field hf hrequired with hlisted | hseen
            · rcases List.mem_cons.mp hlisted with heq | hlater
              · exact .inr (heq ▸ List.mem_cons_self)
              · exact .inl hlater
            · exact .inr (List.mem_cons_of_mem _ hseen)

/-- **A record is what its members make of it**, one after the other, if they are known fields, each
of them once, and no required one is missing. -/
theorem gives_record {effect : κ → σ → Except Problem σ} {members : List κ} {text : List Char}
    (h : ObjectText key Value members text)
    (heffect : ∀ m text, Value m text → shape.Effect (key m) text (effect m))
    (hnodup : (members.map key).Nodup)
    (hcomplete : ∀ field ∈ shape.fields, field.required = true →
      field.name ∈ members.map key) :
    Gives (record shape) text
      (members.foldlM (fun record m => effect m record) shape.start) := by
  obtain @⟨space, body, gap, listed⟩ := h
  intro rest
  rw [List.append_assoc, record, skipSpace_append gap, List.cons_append, skipSpace_cons rfl]
  refine Shape.byName_members listed heffect hnodup rfl (fun m _ => List.not_mem_nil)
    (fun field hfield hrequired => .inl (hcomplete field hfield hrequired)) ?_ shape.start rest
  rw [List.length_append]
  exact Nat.lt_add_right _ listed.length_lt

end

/-! ## Tables -/

/-- A table with one entry more, unless its id is there already. -/
def enter (kind : String) (t : IdMap α) (e : String × α) : Except Problem (IdMap α) :=
  if t.contains e.1 then .error (.duplicateId kind e.1) else .ok (t.insert e.1 e.2)

/-- Entries are put into the table one after the other. The induction is on the text, as for
records. -/
theorem entries_members {Value : String × α → List Char → Prop} {value : Reader α} {first : Bool}
    {members : List (String × α)} {text : List Char}
    (h : MembersText Prod.fst Value first members text)
    (hvalue : ∀ e text, Value e text → Gives value text (.ok e.2)) (kind : String)
    {t : IdMap α} (hfirst : t.entries.isEmpty = first) {bound : List Char}
    (hbound : members.length < bound.length) (rest : List Char) :
    entries kind value bound t (text ++ rest)
      = (members.foldlM (enter kind) t).map fun t => (t, rest) := by
  induction h generalizing t bound with
  | close gap =>
      obtain ⟨c, bound, rfl⟩ := List.exists_cons_of_length_pos hbound
      rw [entries]
      exact bind_ok (nextKey_close _ gap rest)
  | @member first e members separator name space written text separated named gap valued others ih =>
      obtain ⟨c, bound, rfl⟩ := List.exists_cons_of_length_pos (Nat.zero_lt_of_lt hbound)
      have hkey := nextKey_member separated named (space ++ ':' :: (written ++ (text ++ rest)))
      have hread := hvalue e written valued (text ++ rest)
      have happend : separator ++ (name ++ (space ++ ':' :: (written ++ text))) ++ rest
          = separator ++ (name ++ (space ++ ':' :: (written ++ (text ++ rest)))) := by simp
      rw [happend, entries, hfirst, List.foldlM_cons, enter]
      refine (bind_ok hkey).trans ?_
      refine (bind_ok (colon_gap gap _)).trans ?_
      refine (bind_ok hread).trans ?_
      -- the value has been read before its id is looked up
      by_cases hthere : t.contains e.1 = true
      · rw [if_pos hthere, if_pos hthere]
        rfl
      · rw [if_neg hthere, if_neg hthere]
        exact ih (t.isEmpty_insert e.1 e.2) (Nat.lt_of_succ_lt_succ hbound)

/-- **A table has the entries of its object**, if their ids differ. -/
theorem gives_table {Value : String × α → List Char → Prop} {value : Reader α}
    {members : List (String × α)} {text : List Char} (h : ObjectText Prod.fst Value members text)
    (hvalue : ∀ e text, Value e text → Gives value text (.ok e.2))
    (expected kind : String) :
    Gives (table expected kind value) text (members.foldlM (enter kind) IdMap.empty) := by
  obtain @⟨space, body, gap, listed⟩ := h
  intro rest
  rw [List.append_assoc, table, skipSpace_append gap, List.cons_append, skipSpace_cons rfl]
  refine entries_members listed hvalue kind rfl ?_ rest
  rw [List.length_append]
  exact Nat.lt_add_right _ listed.length_lt

end Reader

/-! ## Printed objects -/

section

variable {κ : Type} {key : κ → String} {Value : κ → List Char → Prop}

/-- Printed members, each on a line of its own, are members. -/
theorem membersText_remaining {print : κ → List Char} (depth : Nat) {ending : List Char}
    (hending : ∀ first, MembersText key Value first [] ending) (first : Bool) (members : List κ)
    (h : ∀ m ∈ members, Value m (' ' :: print m)) :
    MembersText key Value first members (Reader.remaining first depth
      (members.map fun m => Reader.printedField (key m, print m)) ending) := by
  induction members generalizing first with
  | nil => exact hending first
  | cons m members ih =>
      obtain ⟨hvalue, hvalues⟩ := List.forall_mem_cons.mp h
      have hrest := ih false hvalues
      have hname := Reader.stringText_quotedChars (key m) (isSpace_newLine depth)
      have hmember := MembersText.member (Reader.separator_comma first) hname (List.forall_mem_nil _) hvalue hrest
      rw [List.map_cons, Reader.remaining_cons, Reader.printedField]
      simpa using hmember

/-- **A printed object** is one of the ways to write it. -/
theorem objectText_object {print : κ → Printed} {members : List κ} {depth : Nat}
    (h : ∀ m ∈ members, Value m (' ' :: print m (depth + 1))) :
    ObjectText key Value members (Printed.object (members.map fun m => (key m, print m)) depth) := by
  rw [Reader.object_eq_bracketed, List.map_map, List.map_map]
  obtain ⟨ending, hend, htext⟩ := Reader.bracketed_append '\x7b' '\x7d' (by decide)
    (members.map fun m => Reader.printedField (key m, print m (depth + 1))) depth []
  rw [List.append_nil] at htext
  have hclose (first : Bool) : MembersText key Value first [] ending := by
    have hcut : ending = ending.takeWhile isSpace ++ ['\x7d'] := by
      rw [← hend.skipped, skipSpace, List.takeWhile_append_dropWhile]
    rw [hcut]
    exact .close fun c hc => List.all_eq_true.mp List.all_takeWhile c hc
  have hmembers := membersText_remaining (depth + 1) hclose true members h
  refine Eq.mpr (congrArg _ htext) ?_
  exact ObjectText.mk (List.forall_mem_nil _) hmembers

end

end AgileSeal.Json
