import AgileSeal.Json.Reader
import AgileSeal.Proofs.Json.Spelling

set_option autoImplicit false

/-! # Strings and keys however they are written

Between tokens there may be any white space (`Gap`), and a string may be spelled in many ways
(`StringText`). What is read is the string (`text_spelled`), and the key of a member is found behind
the comma that it needs (`nextKey_member`).
-/

namespace AgileSeal.Json

/-! ## White space -/

theorem skipSpace_append {space : List Char} (h : ∀ c ∈ space, isSpace c = true) (cs : List Char) :
    skipSpace (space ++ cs) = skipSpace cs := List.dropWhile_append_of_pos h

theorem skipSpace_cons {c : Char} (h : isSpace c = false) (cs : List Char) :
    skipSpace (c :: cs) = c :: cs :=
  List.dropWhile_cons_of_neg (h ▸ Bool.false_ne_true)

/-- White space between tokens. -/
def Gap (space : List Char) : Prop := ∀ c ∈ space, isSpace c = true

/-- A string in one of its spellings, behind white space. -/
inductive StringText (s : String) : List Char → Prop
  | mk {space spelling : List Char} (gap : Gap space) (spelled : Spells s.toList spelling) :
    StringText s (space ++ '"' :: (spelling ++ ['"']))

/-- What stands before a member: a comma, unless it is the first one. -/
inductive Separator : Bool → List Char → Prop
  | none : Separator true []
  | comma {space : List Char} (gap : Gap space) : Separator false (space ++ [','])

namespace Reader

variable {α β : Type}

/-! ## Steps of a reader -/

/-- A reader that succeeds is followed by the next one. -/
theorem bind_ok {x : Reader α} {f : α → Reader β} {cs cs' : List Char} {a : α}
    (h : x cs = .ok (a, cs')) : (x >>= f) cs = f a cs' := by
  show (x cs >>= fun p => f p.1 p.2) = f a cs'
  rw [h]
  rfl

theorem map_ok {x : Reader α} {f : α → β} {cs cs' : List Char} {a : α}
    (h : x cs = .ok (a, cs')) : (f <$> x) cs = .ok (f a, cs') := by
  show (x cs >>= fun p => pure (f p.1, p.2)) = .ok (f a, cs')
  rw [h]
  rfl

theorem bind_error {x : Reader α} {f : α → Reader β} {cs : List Char} {problem : Problem}
    (h : x cs = .error problem) : (x >>= f) cs = .error problem := by
  show (x cs >>= fun p => f p.1 p.2) = .error problem
  rw [h]
  rfl

theorem peek_append {space : List Char} (hspace : ∀ c ∈ space, isSpace c = true) {c : Char}
    (hc : isSpace c = false) (cs : List Char) :
    peek (space ++ c :: cs) = .ok (some c, c :: cs) := by
  rw [peek, skipSpace_append hspace, skipSpace_cons hc]
  rfl

/-! ## Strings -/

/-- A string ends with its quote, however it is spelled and whatever stands behind it. -/
theorem text_spelled {s : String} {spelling : List Char} (spelled : Spells s.toList spelling)
    {space : List Char} (hspace : ∀ c ∈ space, isSpace c = true) (rest : List Char) :
    text (space ++ '"' :: (spelling ++ '"' :: rest)) = .ok (s, rest) := by
  rw [text, skipSpace_append hspace, skipSpace_cons rfl]
  show ofScan (scanString (spelling ++ '"' :: rest)) = _
  rw [scanString_of_spells spelled]
  rfl

/-! ## Keys -/

theorem colon_gap {space : List Char} (gap : Gap space) (cs : List Char) :
    colon (space ++ ':' :: cs) = .ok ((), cs) := bind_ok (peek_append gap rfl cs)

theorem nextKey_close (first : Bool) {space : List Char} (gap : Gap space) (rest : List Char) :
    nextKey first (space ++ ['\x7d'] ++ rest) = .ok (none, '\x7d' :: rest) := by
  rw [List.append_assoc]
  exact bind_ok (peek_append gap rfl rest)

/-- A key is found behind what stands before its member. -/
theorem nextKey_member {first : Bool} {separator : List Char} (separated : Separator first separator)
    {name : String} {written : List Char} (named : StringText name written) (rest : List Char) :
    nextKey first (separator ++ (written ++ rest)) = .ok (some name, rest) := by
  obtain @⟨space, spelling, gap, spelled⟩ := named
  have htext := text_spelled spelled (List.forall_mem_nil _) rest
  have hpeek := peek_append gap (c := '"') rfl (spelling ++ '"' :: rest)
  rw [List.append_assoc, List.cons_append, List.append_assoc]
  cases separated with
  | none => exact (bind_ok hpeek).trans (map_ok htext)
  | comma before =>
      rw [List.append_assoc]
      refine (bind_ok (peek_append before rfl _)).trans ?_
      refine (bind_ok (x := advance) rfl).trans ?_
      exact (bind_ok hpeek).trans (map_ok htext)

end Reader

end AgileSeal.Json
