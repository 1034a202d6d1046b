import SharpSource.Proofs.Splitting

/-!
# Blanks at the ends of a text

Types, attributes and directives are trimmed before they are read, so that what
stands around them does not count. The laws of trimming come down to two: blanks
at an end are dropped (`Text.trim_between`), and nothing is dropped past a
character that is not blank (`Text.dropBlankEnd_append_cons`). A text stays as
it is when it starts and ends in such a character (`Text.trim_eq_self_of_ends`).
-/

namespace SharpSource.Text

variable {cs ds blanks : List Char} {c : Char}

/-! ### At one end -/

theorem dropBlankEnd_eq_rdropWhile (cs : List Char) :
    dropBlankEnd cs = cs.rdropWhile isBlank := rfl

theorem dropBlankEnd_eq_nil_iff (cs : List Char) :
    dropBlankEnd cs = [] ↔ ∀ c ∈ cs, isBlank c = true := by
  rw [dropBlankEnd_eq_rdropWhile, List.rdropWhile_eq_nil_iff]

/-- **Blanks at the end** are dropped. -/
theorem dropBlankEnd_append_blanks (h : ∀ c ∈ blanks, isBlank c = true) :
    dropBlankEnd (cs ++ blanks) = dropBlankEnd cs := by
  have hreverse : ∀ c ∈ blanks.reverse, isBlank c = true :=
    fun c hc => h c (List.mem_reverse.mp hc)
  rw [dropBlankEnd, List.reverse_append, List.dropWhile_append_of_pos hreverse, dropBlankEnd]

/-- **A character that is not blank** is not dropped, nor is anything in front
of it. -/
theorem dropBlankEnd_append_cons (h : isBlank c = false) (cs ds : List Char) :
    dropBlankEnd (cs ++ c :: ds) = cs ++ c :: dropBlankEnd ds := by
  induction ds using List.reverseRecOn with
  | nil =>
    rw [dropBlankEnd_eq_rdropWhile, List.rdropWhile_concat_neg _ _ _ (by simp [h])]
    rfl
  | append_singleton ds d ih =>
    rw [← List.cons_append, ← List.append_assoc]
    by_cases hd : isBlank d = true
    · have hblank : ∀ c ∈ [d], isBlank c = true := by simpa using hd
      rw [dropBlankEnd_append_blanks hblank, dropBlankEnd_append_blanks hblank, ih]
    · simp only [dropBlankEnd_eq_rdropWhile, List.rdropWhile_concat_neg _ _ _ hd]
      simp

/-- Characters that do not end in a blank lose none. -/
theorem dropBlankEnd_eq_self (h : ∀ c ∈ cs.getLast?, isBlank c = false) : dropBlankEnd cs = cs := by
  rcases cs.eq_nil_or_concat' with rfl | ⟨ds, c, rfl⟩
  · rfl
  · exact dropBlankEnd_append_cons (h c (by simp)) ds []

/-- What is dropped are blanks. -/
theorem exists_blanks (cs : List Char) :
    ∃ blanks, (∀ c ∈ blanks, isBlank c = true) ∧ cs = dropBlankEnd cs ++ blanks :=
  ⟨cs.rtakeWhile isBlank, fun _ hc => List.mem_rtakeWhile_imp hc,
    List.rdropWhile_append_rtakeWhile.symm⟩

/-! ### At both ends -/

/-- **Blanks around a text** do not count. -/
theorem trim_between {before after : String} (hbefore : isBlankText before = true)
    (hafter : isBlankText after = true) (s : String) : trim (before ++ s ++ after) = trim s := by
  rw [isBlankText, List.all_eq_true] at hbefore hafter
  rw [trim, trim, String.toList_append, String.toList_append, List.append_assoc, trimChars,
    trimChars, List.dropWhile_append_of_pos hbefore, List.dropWhile_append]
  split
  · -- Where the text is blank itself, all of it is dropped from the front.
    rename_i hempty
    rw [List.isEmpty_iff] at hempty
    rw [hempty, List.dropWhile_eq_nil_iff.mpr hafter]
  · rw [dropBlankEnd_append_blanks hafter]

/-- A list of characters whose first and last ones are not blank is not changed
by trimming. -/
theorem trimChars_eq_self (hhead : ∀ c ∈ cs.head?, isBlank c = false)
    (hlast : ∀ c ∈ cs.getLast?, isBlank c = false) : trimChars cs = cs := by
  have hfront : cs.dropWhile isBlank = cs := by
    cases cs with
    | nil => rfl
    | cons c cs => rw [List.dropWhile_cons_of_neg (by simpa using hhead c)]
  rw [trimChars, hfront, dropBlankEnd_eq_self hlast]

/-- The last character that is left is not blank. -/
theorem isBlank_getLast?_dropBlankEnd : ∀ c ∈ (dropBlankEnd cs).getLast?, isBlank c = false :=
  of_mem_getLast?_rdropWhile

/-- **A list that trimming leaves alone** starts and ends in characters that are
not blank. -/
theorem ends_of_trimChars_eq_self (h : trimChars cs = cs) :
    (∀ c ∈ cs.head?, isBlank c = false) ∧ ∀ c ∈ cs.getLast?, isBlank c = false := by
  constructor
  · -- If anything went from the front, there would be fewer characters.
    have hfront : cs.dropWhile isBlank = cs := by
      refine (List.dropWhile_suffix isBlank).eq_of_length_le ?_
      calc cs.length = (trimChars cs).length := by rw [h]
        _ ≤ (cs.dropWhile isBlank).length := (List.rdropWhile_prefix isBlank _).length_le
    intro c hc
    cases cs with
    | nil => cases hc
    | cons d cs =>
      obtain rfl : d = c := by simpa using hc
      simpa using List.dropWhile_eq_self_iff.mp hfront (Nat.succ_pos _)
  · rw [← h, trimChars]
    exact isBlank_getLast?_dropBlankEnd

/-- **A text that starts and ends in characters that are not blank** is not
changed by trimming. -/
theorem trim_eq_self_of_ends {s : String} (hhead : ∀ c ∈ s.toList.head?, isBlank c = false)
    (hlast : ∀ c ∈ s.toList.getLast?, isBlank c = false) : trim s = s := by
  rw [trim, trimChars_eq_self hhead hlast, String.ofList_toList]

theorem ends_of_trim_eq_self {s : String} (h : trim s = s) :
    (∀ c ∈ s.toList.head?, isBlank c = false) ∧ ∀ c ∈ s.toList.getLast?, isBlank c = false := by
  refine ends_of_trimChars_eq_self ?_
  rw [trim] at h
  rw [← String.toList_ofList (l := trimChars s.toList), h]

/-- **Trimming once is enough.** -/
theorem trim_trim (s : String) : trim (trim s) = trim s := by
  have hlast : ∀ c ∈ (trim s).toList.getLast?, isBlank c = false := by
    rw [trim, String.toList_ofList]
    exact isBlank_getLast?_dropBlankEnd
  refine trim_eq_self_of_ends (fun c hc => ?_) hlast
  -- What is left at the front after the end was trimmed was there before.
  have hfront : (s.toList.dropWhile isBlank).head? = some c := by
    rw [trim, String.toList_ofList] at hc
    obtain ⟨blanks, -, hback⟩ := exists_blanks (s.toList.dropWhile isBlank)
    rw [hback, List.head?_append]
    exact congrArg (·.or blanks.head?) hc
  have hnot := List.head?_dropWhile_not isBlank s.toList
  rw [hfront] at hnot
  simpa using hnot

theorem trim_of_mem_trimmedNonempty {ls : List String} {s : String} (h : s ∈ trimmedNonempty ls) :
    trim s = s := by
  obtain ⟨l, -, rfl⟩ := List.mem_map.mp (List.mem_of_mem_filter h)
  exact trim_trim l

/-- Nothing is trimmed off a text without blanks. -/
theorem trim_eq_self {s : String} (h : ∀ c ∈ s.toList, isBlank c = false) : trim s = s :=
  trim_eq_self_of_ends (fun c hc => h c (List.mem_of_head? hc))
    fun c hc => h c (List.mem_of_getLast? hc)

/-- A text is blank when nothing is left of it after trimming. -/
theorem trim_eq_empty_iff (s : String) : trim s = "" ↔ isBlankText s = true := by
  rw [isBlankText, List.all_eq_true, trim, String.ofList_eq_empty_iff, trimChars,
    dropBlankEnd_eq_nil_iff]
  constructor
  · intro h c hc
    by_contra hblank
    -- The first character that is not blank is what trimming would leave.
    have hne : s.toList.dropWhile isBlank ≠ [] := by
      rw [Ne, List.dropWhile_eq_nil_iff]
      exact fun hall => hblank (hall c hc)
    exact absurd (h _ (List.head_mem hne)) (by simp [List.head_dropWhile_not])
  · intro h c hc
    exact h c ((List.dropWhile_sublist isBlank).mem hc)

theorem trim_sublist (s : String) : (trim s).toList.Sublist s.toList := by
  rw [trim, String.toList_ofList, trimChars]
  exact (List.rdropWhile_prefix isBlank _).sublist.trans (List.dropWhile_sublist isBlank)

/-! ### What is not blank -/

/-- The number of characters that are not blank. -/
def solid (cs : List Char) : Nat :=
  cs.countP (!isBlank ·)

theorem solid_append (cs ds : List Char) : solid (cs ++ ds) = solid cs + solid ds :=
  List.countP_append

theorem solid_cons_of_not_blank (h : isBlank c = false) (cs : List Char) :
    solid (c :: cs) = solid cs + 1 :=
  List.countP_cons_of_pos (by simp [h])

theorem solid_eq_zero (h : ∀ c ∈ blanks, isBlank c = true) : solid blanks = 0 := by
  rw [solid, List.countP_eq_zero]
  simpa using h

/-- **Trimming takes nothing away that is not blank.** -/
theorem solid_trimChars (cs : List Char) : solid (trimChars cs) = solid cs := by
  have hfront : solid (cs.takeWhile isBlank) = 0 :=
    solid_eq_zero fun c hc => List.mem_takeWhile_imp hc
  obtain ⟨blanks, hblanks, hback⟩ := exists_blanks (cs.dropWhile isBlank)
  calc solid (trimChars cs)
    _ = solid (trimChars cs) + solid blanks := by rw [solid_eq_zero hblanks]; rfl
    _ = solid (cs.dropWhile isBlank) := by rw [hback, solid_append]; rfl
    _ = solid (cs.takeWhile isBlank ++ cs.dropWhile isBlank) := by
      rw [solid_append, hfront, Nat.zero_add]
    _ = solid cs := by rw [List.takeWhile_append_dropWhile]

theorem solid_trim (s : String) : solid (trim s).toList = solid s.toList := by
  rw [trim, String.toList_ofList, solid_trimChars]

end SharpSource.Text
