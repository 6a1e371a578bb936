import AgileSeal.Text.Blank

set_option autoImplicit false

/-! # What trimming and folding keep

Trimming takes the blanks at the two ends of a text and nothing else: what is left has no blank at
its ends (`Trimmed`), and there is one way only to cut a text like this (`trimChars_eq_iff`).

Names are compared with their blanks trimmed and without regard to the case of ASCII letters. A
text has one form for this comparison (`folded`). Folding makes no blank and removes none, so the
folded text is trimmed (`trim_folded`) and compares like the text itself
(`sameName_trim_folded`).
-/

namespace AgileSeal.Text

/-! ## Trimming -/

/-- Nothing but blanks. -/
def Blanks (cs : List Char) : Prop := ∀ c ∈ cs, isBlank c = true

/-- No blank at either end. -/
structure Trimmed (cs : List Char) : Prop where
  head : ∀ c ∈ cs.head?, isBlank c = false
  last : ∀ c ∈ cs.getLast?, isBlank c = false

theorem trimmed_of_no_blank {cs : List Char} (h : ∀ c ∈ cs, isBlank c = false) : Trimmed cs :=
  ⟨fun c hc => h c (List.mem_of_mem_head? hc), fun c hc => h c (List.mem_of_getLast? hc)⟩

/-- Behind blanks, dropping blanks stops where there are none. -/
theorem dropWhile_blanks {blanks rest : List Char} (hblanks : Blanks blanks)
    (hrest : ∀ c ∈ rest.head?, isBlank c = false) :
    (blanks ++ rest).dropWhile isBlank = rest := by
  rw [List.dropWhile_append_of_pos hblanks]
  cases rest with
  | nil => rfl
  | cons c rest =>
      refine List.dropWhile_cons_of_neg ?_
      rw [hrest c rfl]
      exact Bool.false_ne_true

/-- Trimming takes the blanks around a text without blanks at its ends. -/
theorem trimChars_append {before core after : List Char} (hbefore : Blanks before)
    (hafter : Blanks after) (hcore : Trimmed core) :
    trimChars (before ++ (core ++ after)) = core := by
  cases core with
  | nil =>
      -- the blanks before and after nothing are one run of blanks
      have hall : Blanks (before ++ after) := fun c hc =>
        (List.mem_append.mp hc).elim (hbefore c) (hafter c)
      exact (trimChars_eq_nil_iff _).mpr (List.all_eq_true.mpr hall)
  | cons c core =>
      have hreverse : ∀ d ∈ (c :: core).reverse.head?, isBlank d = false := by
        rw [List.head?_reverse]
        exact hcore.last
      have hfront : (before ++ (c :: core ++ after)).dropWhile isBlank = c :: core ++ after :=
        dropWhile_blanks hbefore hcore.head
      rw [trimChars, hfront, trimEnd, List.reverse_append,
        dropWhile_blanks (fun d hd => hafter d (List.mem_reverse.mp hd)) hreverse,
        List.reverse_reverse]

theorem head?_dropWhile_isBlank (cs : List Char) :
    ∀ c ∈ (cs.dropWhile isBlank).head?, isBlank c = false := by
  intro c hc
  have hhead := List.head?_dropWhile_not isBlank cs
  rw [Option.mem_def.mp hc] at hhead
  exact hhead

theorem blanks_takeWhile (cs : List Char) : Blanks (cs.takeWhile isBlank) :=
  List.all_eq_true.mp List.all_takeWhile

/-- A list of characters is the list without the blanks at its end, and blanks. -/
theorem exists_trimEnd (cs : List Char) : ∃ after, Blanks after ∧ cs = trimEnd cs ++ after := by
  refine ⟨(cs.reverse.takeWhile isBlank).reverse,
    fun c hc => blanks_takeWhile _ c (List.mem_reverse.mp hc), ?_⟩
  rw [trimEnd, ← List.reverse_append, List.takeWhile_append_dropWhile, List.reverse_reverse]

theorem trimmed_trimChars (cs : List Char) : Trimmed (trimChars cs) := by
  refine ⟨?_, ?_⟩
  · obtain ⟨after, -, hcut⟩ := exists_trimEnd (cs.dropWhile isBlank)
    intro c (hc : (trimEnd (cs.dropWhile isBlank)).head? = some c)
    refine head?_dropWhile_isBlank cs c ?_
    rw [hcut, List.head?_append, hc]
    rfl
  · rw [trimChars, trimEnd, List.getLast?_reverse]
    exact head?_dropWhile_isBlank _

/-- A list of characters is its trimmed form between blanks. -/
theorem exists_trimChars (cs : List Char) :
    ∃ before after, Blanks before ∧ Blanks after ∧ cs = before ++ (trimChars cs ++ after) := by
  obtain ⟨after, hafter, hcut⟩ := exists_trimEnd (cs.dropWhile isBlank)
  refine ⟨cs.takeWhile isBlank, after, blanks_takeWhile cs, hafter, ?_⟩
  rw [trimChars, ← hcut, List.takeWhile_append_dropWhile]

/-- **What trimming leaves** is what stands between blanks and has none at its ends. -/
theorem trimChars_eq_iff {cs core : List Char} : trimChars cs = core ↔
    Trimmed core ∧ ∃ before after, Blanks before ∧ Blanks after ∧
      cs = before ++ (core ++ after) := by
  constructor
  · rintro rfl
    exact ⟨trimmed_trimChars cs, exists_trimChars cs⟩
  · rintro ⟨hcore, before, after, hbefore, hafter, rfl⟩
    exact trimChars_append hbefore hafter hcore

/-- What is trimmed already is not trimmed further. -/
theorem trimChars_of_trimmed {cs : List Char} (h : Trimmed cs) : trimChars cs = cs := by
  have htrim := trimChars_append (List.forall_mem_nil _) (List.forall_mem_nil _) h
  rwa [List.nil_append, List.append_nil] at htrim

/-- A text without blanks is its own trim. -/
theorem trim_of_no_blank {s : String} (h : ∀ c ∈ s.toList, isBlank c = false) : trim s = s := by
  rw [trim, trimChars_of_trimmed (trimmed_of_no_blank h), String.ofList_toList]

/-! ## Folding -/

/-- Only the capitals of ASCII have another small letter, which stands 32 places above. -/
theorem toLower_cases (c : Char) :
    c.toLower = c ∨ (65 ≤ c.toNat ∧ c.toNat ≤ 90) ∧ c.toLower.toNat = c.toNat + 32 := by
  by_cases h : c.val ≥ 'A'.val ∧ c.val ≤ 'Z'.val
  · refine .inr ⟨h, ?_⟩
    have hmost : c.toNat ≤ 90 := h.2
    have hlower : c.toLower.val = c.val + 32 := congrArg Char.val (dif_pos h)
    show c.toLower.val.toNat = c.val.toNat + 32
    rw [hlower, UInt32.toNat_add]
    exact Nat.mod_eq_of_lt (by show c.toNat + 32 < 2 ^ 32; omega)
  · exact .inl (dif_neg h)

/-- A small letter stays as it is. -/
theorem toLower_toLower (c : Char) : c.toLower.toLower = c.toLower := by
  rcases toLower_cases c with hsame | ⟨⟨hleast, -⟩, hnext⟩
  · rw [hsame, hsame]
  · rcases toLower_cases c.toLower with hsame | ⟨⟨-, hmost⟩, -⟩
    · exact hsame
    · omega

/-- No letter is a blank. -/
theorem isBlank_toLower (c : Char) : isBlank c.toLower = isBlank c := by
  have hletter {d : Char} (hleast : 65 ≤ d.toNat) (hmost : d.toNat ≤ 122) : isBlank d = false := by
    simp only [isBlank, Bool.or_eq_false_iff, Bool.and_eq_false_iff, decide_eq_false_iff_not,
      beq_eq_false_iff_ne, ne_eq]
    omega
  rcases toLower_cases c with hsame | ⟨⟨hleast, hmost⟩, hnext⟩
  · rw [hsame]
  · rw [hletter hleast (by omega), hletter (by omega) (by omega)]

/-- A text as it is compared with names: without the blanks at its ends and with small letters for
the capitals of ASCII. -/
def folded (s : String) : String := String.ofList ((trimChars s.toList).map Char.toLower)

/-- A folded text has no blanks at its ends. -/
theorem trim_folded (s : String) : trim (folded s) = folded s := by
  have htrimmed := trimmed_trimChars s.toList
  rw [trim, folded, String.toList_ofList]
  refine congrArg String.ofList (trimChars_of_trimmed ⟨?_, ?_⟩)
  · intro c hc
    rw [List.head?_map] at hc
    obtain ⟨d, hd, rfl⟩ := Option.map_eq_some_iff.mp hc
    rw [isBlank_toLower]
    exact htrimmed.head d hd
  · intro c hc
    rw [List.getLast?_map] at hc
    obtain ⟨d, hd, rfl⟩ := Option.map_eq_some_iff.mp hc
    rw [isBlank_toLower]
    exact htrimmed.last d hd

/-- A folded text is the name of the same as the text itself. -/
theorem sameName_trim_folded (name s : String) :
    sameName name (trim (folded s)) = sameName name (trim s) := by
  have hsmall : (trim (folded s)).toList.map Char.toLower
      = (trim s).toList.map Char.toLower := by
    calc (trim (folded s)).toList.map Char.toLower
        = ((trimChars s.toList).map Char.toLower).map Char.toLower := by
          rw [trim_folded, folded, String.toList_ofList]
      _ = (trimChars s.toList).map Char.toLower := by
          rw [List.map_map]
          exact List.map_congr_left fun c _ => toLower_toLower c
      _ = (trim s).toList.map Char.toLower := by
          rw [trim, String.toList_ofList]
  rw [sameName, sameName, hsmall]

end AgileSeal.Text
