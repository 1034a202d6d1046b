import SharpSource.Proofs.Suffixes

/-!
# Where a type is split

A type is split by a scan from its end. Each round passes over blanks and takes
one mark off, and the scan stops at the first thing that is no mark. It might be
asked how far this goes, and whether something else could have been the base.

The scan always comes to an end, after as many rounds as marks were taken off
(`TypeSuffix.exists_scans_strip`), and where it stops nothing is left to be
taken off (`TypeSuffix.isBare_base`). So what is in front of that place is
**bare**: it ends neither in a blank nor in a mark. This settles the other
question as well. A bare text and marks behind it are split from each other
however the marks are spelled (`TypeSuffix.split_spelled`), and therefore a type
has one bare text in front of a spelling of marks, which is the base that is
split off (`TypeSuffix.split_exact`).
-/

namespace SharpSource

namespace TypeSuffix

/-! ### Bare texts -/

/-- **A text ends in a mark** when the last thing in it is a question mark, or a
pair of brackets with nothing but commas and blanks between them. -/
def EndsInMark (cs : List Char) : Prop :=
  (∃ front, cs = front ++ ['?']) ∨
    ∃ front inner, cs = front ++ '[' :: (inner ++ [']']) ∧ ∀ c ∈ inner, isFiller c = true

/-- **A bare type** has nothing at its end that could be split off, neither a
blank nor a mark. -/
structure IsBare (base : String) : Prop where
  no_blank : ∀ c ∈ base.toList.getLast?, Text.isBlank c = false
  no_mark : ¬EndsInMark base.toList

/-- A text that ends in a mark loses it. -/
theorem EndsInMark.exists_stripMark? {cs : List Char} (h : EndsInMark cs) :
    ∃ rest, stripMark? cs.reverse = some rest := by
  rcases h with ⟨front, rfl⟩ | ⟨front, inner, rfl, hinner⟩
  · rw [List.reverse_append]
    exact ⟨_, rfl⟩
  · have hreverse : (front ++ '[' :: (inner ++ [']'])).reverse =
        ']' :: (inner.reverse ++ '[' :: front.reverse) := by
      simp
    rw [hreverse, stripMark?_brackets fun c hc => hinner c (List.mem_reverse.mp hc)]
    exact ⟨_, rfl⟩

/-- **What a round takes off**: blanks, and the mark in front of them. -/
theorem eq_append_of_stripMark? {cs rest : List Char} (h : stripMark? cs = some rest) :
    ∃ blanks : List Char, (∀ b ∈ blanks, Text.isBlank b = true) ∧
      (cs = blanks ++ '?' :: rest ∨ ∃ inner : List Char, (∀ c ∈ inner, isFiller c = true) ∧
        cs = blanks ++ ']' :: (inner ++ '[' :: rest)) := by
  have hcs := List.takeWhile_append_dropWhile (p := Text.isBlank) (l := cs)
  refine ⟨cs.takeWhile Text.isBlank, fun b hb => List.mem_takeWhile_imp hb, ?_⟩
  rw [stripMark?] at h
  split at h
  · rename_i behind hmark
    obtain rfl : behind = rest := Option.some.inj h
    exact .inl (by rw [← hmark, hcs])
  · rename_i behind hmark
    split at h
    · rename_i front hfront
      obtain rfl : front = rest := Option.some.inj h
      have hbehind := List.takeWhile_append_dropWhile (p := isFiller) (l := behind)
      rw [hfront] at hbehind
      exact .inr ⟨behind.takeWhile isFiller, fun c hc => List.mem_takeWhile_imp hc,
        by rw [hbehind, ← hmark, hcs]⟩
    · cases h
  · cases h

/-- What is taken off a text without blanks at its end was the mark that it
ended in. -/
theorem endsInMark_of_stripMark? {cs rest : List Char}
    (hend : ∀ c ∈ cs.getLast?, Text.isBlank c = false) (h : stripMark? cs.reverse = some rest) :
    EndsInMark cs := by
  obtain ⟨blanks, hblanks, hcs⟩ := eq_append_of_stripMark? h
  rw [← List.head?_reverse] at hend
  obtain rfl : blanks = [] := by
    cases blanks with
    | nil => rfl
    | cons b blanks =>
      have hhead : cs.reverse.head? = some b := by
        rcases hcs with hcs | ⟨_, _, hcs⟩ <;> rw [hcs] <;> rfl
      have hb := hblanks b (List.mem_cons_self ..)
      rw [hend b hhead] at hb
      cases hb
  rcases hcs with hcs | ⟨inner, hinner, hcs⟩
  · exact .inl ⟨rest.reverse, List.reverse_eq_cons_iff.mp hcs⟩
  · refine .inr ⟨rest.reverse, inner.reverse, ?_, fun c hc => hinner c (List.mem_reverse.mp hc)⟩
    calc cs = (inner ++ '[' :: rest).reverse ++ [']'] := List.reverse_eq_cons_iff.mp hcs
      _ = rest.reverse ++ '[' :: (inner.reverse ++ [']']) := by simp

/-- **A text without blanks at its end** loses no mark exactly when it ends in
none. -/
theorem stripMark?_eq_none_iff {cs : List Char}
    (hend : ∀ c ∈ cs.getLast?, Text.isBlank c = false) :
    stripMark? cs.reverse = none ↔ ¬EndsInMark cs := by
  constructor
  · intro hnone hmark
    obtain ⟨rest, hrest⟩ := hmark.exists_stripMark?
    rw [hnone] at hrest
    cases hrest
  · intro hmark
    cases h : stripMark? cs.reverse with
    | none => rfl
    | some rest => exact absurd (endsInMark_of_stripMark? hend h) hmark

/-! ### The scan -/

/-- **A scan** of the characters of a type, from its end: it takes one mark off
in each round, and stops where it finds none. -/
inductive Scans : (cs : List Char) → (rounds : Nat) → (rest : List Char) → Prop
  /-- There is no mark to be taken off. -/
  | stop {cs : List Char} (h : stripMark? cs = none) : Scans cs 0 cs
  /-- A mark is taken off, and the scan goes on in front of it. -/
  | round {cs cs' rest : List Char} {rounds : Nat} (h : stripMark? cs = some cs')
      (hrest : Scans cs' rounds rest) : Scans cs (rounds + 1) rest

/-- Where a scan stops, there is no mark. -/
theorem Scans.stripMark?_eq_none {cs rest : List Char} {rounds : Nat} (h : Scans cs rounds rest) :
    stripMark? rest = none := by
  induction h with
  | stop h => exact h
  | round _ _ ih => exact ih

theorem Spells.append {marks' : List Mark} {cs cs' : List Char} (h : Spells marks cs)
    (h' : Spells marks' cs') : Spells (marks ++ marks') (cs ++ cs') := by
  rw [Spells, List.filter_append, h, h', List.flatMap_append]

/-- **What is taken off is a mark**, with the blanks in it and behind it. -/
theorem exists_spells_of_stripMark? {cs rest : List Char} (h : stripMark? cs = some rest) :
    ∃ (m : Mark) (taken : List Char), cs = taken ++ rest ∧ Spells [m] taken.reverse := by
  obtain ⟨blanks, hblanks, hcs⟩ := eq_append_of_stripMark? h
  have hblank : blanks.reverse.filter (!Text.isBlank ·) = [] :=
    filter_blanks fun b hb => hblanks b (List.mem_reverse.mp hb)
  rcases hcs with rfl | ⟨inner, hinner, rfl⟩
  · refine ⟨.nullable, blanks ++ ['?'], by simp, ?_⟩
    rw [Spells, List.reverse_append, List.filter_append, hblank]
    rfl
  · have hfill : ∀ c ∈ inner.reverse, isFiller c = true := fun c hc =>
      hinner c (List.mem_reverse.mp hc)
    obtain ⟨commas, hcommas⟩ := forall_isFiller_iff.mp hfill
    have hreverse : (blanks ++ ']' :: (inner ++ ['['])).reverse =
        '[' :: (inner.reverse ++ ']' :: blanks.reverse) := by
      simp
    refine ⟨.array commas, blanks ++ ']' :: (inner ++ ['[']), by simp, ?_⟩
    rw [Spells, hreverse, List.filter_cons_of_pos (by decide), List.filter_append, hcommas,
      List.filter_cons_of_pos (by decide), hblank, List.flatMap_singleton]
    rfl

/-- **Every scan comes to an end**, and all that it takes off are marks, one in
each round. -/
theorem exists_scans_strip (cs : List Char) :
    ∃ (marks : List Mark) (taken : List Char), cs = taken ++ strip cs ∧
      Spells marks taken.reverse ∧ Scans cs marks.length (strip cs) := by
  induction cs using strip.induct with
  | case1 cs rest hrest _ ih =>
    obtain ⟨m, taken, hcs, hm⟩ := exists_spells_of_stripMark? hrest
    obtain ⟨marks, taken', hrest', hmarks, hscan⟩ := ih
    have hstrip : strip cs = strip rest := by rw [strip_eq, hrest]
    refine ⟨marks ++ [m], taken ++ taken', ?_, ?_, ?_⟩
    · rw [hstrip, List.append_assoc, ← hrest', hcs]
    · rw [List.reverse_append]
      exact hmarks.append hm
    · rw [hstrip, List.length_append]
      exact .round hrest hscan
  | case2 cs hnone =>
    have hstrip : strip cs = cs := by rw [strip_eq, hnone]
    refine ⟨[], [], by rw [hstrip, List.nil_append], rfl, ?_⟩
    rw [hstrip]
    exact .stop hnone

/-- The suffix that is split off is what follows the rest, without the blanks in
it. -/
theorem toList_suffix_split {cs : List Char} {taken : List Char}
    (h : cs = (strip cs.reverse).reverse ++ taken) :
    (split (String.ofList cs)).2.toList = taken.filter (!Text.isBlank ·) := by
  have hdrop : cs.drop (strip cs.reverse).reverse.length = taken :=
    (congrArg (List.drop _) h).trans List.drop_left
  rw [split, String.toList_ofList, String.toList_ofList, hdrop]

/-! ### The base and the suffix -/

/-- The base of a type is where the scan stops, without the blanks at its
end. -/
theorem split_fst (type : String) :
    (split type).1 = Text.trimEnd (String.ofList (strip type.toList.reverse).reverse) := by
  rw [split, Text.trimEnd, String.toList_ofList]

/-- **The base of a type is bare.** -/
theorem isBare_base (type : String) : IsBare (split type).1 := by
  obtain ⟨_, _, _, _, hscan⟩ := exists_scans_strip type.toList.reverse
  have hend : ∀ c ∈ (Text.dropBlankEnd (strip type.toList.reverse).reverse).getLast?,
      Text.isBlank c = false := Text.isBlank_getLast?_dropBlankEnd
  obtain ⟨blanks, hblanks, hbase⟩ := Text.exists_blanks (strip type.toList.reverse).reverse
  -- The blanks that the base loses hid no mark.
  have hnone :
      stripMark? (Text.dropBlankEnd (strip type.toList.reverse).reverse).reverse = none := by
    have hstop := hscan.stripMark?_eq_none
    rw [← (strip type.toList.reverse).reverse_reverse, hbase, List.reverse_append,
      stripMark?_blanks fun b hb => hblanks b (List.mem_reverse.mp hb)] at hstop
    exact hstop
  rw [split_fst, Text.trimEnd, String.toList_ofList]
  constructor
  case no_blank => rwa [String.toList_ofList]
  case no_mark => rwa [String.toList_ofList, ← stripMark?_eq_none_iff hend]

/-- **A type is its base and the marks that were taken off**, with blanks among
them. -/
theorem exists_written (type : String) :
    ∃ (marks : List Mark) (written : String),
      Scans type.toList.reverse marks.length (strip type.toList.reverse) ∧
      type = (split type).1 ++ written ∧ Spells marks written.toList ∧
      (split type).2 = String.join (marks.map Mark.text) := by
  obtain ⟨marks, taken, hcs, hspells, hscan⟩ := exists_scans_strip type.toList.reverse
  obtain ⟨blanks, hblanks, hbase⟩ := Text.exists_blanks (strip type.toList.reverse).reverse
  have htype : type.toList = (strip type.toList.reverse).reverse ++ taken.reverse := by
    rw [← List.reverse_append, ← hcs, List.reverse_reverse]
  have hwritten : Spells marks (blanks ++ taken.reverse) := by
    rw [Spells, List.filter_append, filter_blanks hblanks, List.nil_append, hspells]
  have hsuffix := toList_suffix_split htype
  rw [String.ofList_toList, hspells] at hsuffix
  refine ⟨marks, String.ofList (blanks ++ taken.reverse), hscan, ?_, ?_, ?_⟩
  · rw [split_fst, Text.trimEnd, String.toList_ofList, ← String.ofList_append, ← List.append_assoc,
      ← hbase, ← htype, String.ofList_toList]
  · rwa [String.toList_ofList]
  · rw [← ofList_flatMap_chars, ← hsuffix, String.ofList_toList]

/-- A bare type and marks behind it are split from each other. -/
theorem IsBare.split_append {base written : String} {marks : List Mark} (h : IsBare base)
    (hwritten : Spells marks written.toList) :
    split (base ++ written) = (base, String.join (marks.map Mark.text)) :=
  split_spelled ((stripMark?_eq_none_iff h.no_blank).mpr h.no_mark) h.no_blank hwritten

/-- **A type is split in one way only.** The scan of any type comes to an end,
after as many rounds as there are marks in the suffix, and the base is what it
leaves, without blanks at its end. A text and a suffix are what the type is
split into exactly when the text is bare, and the type is the text with a
spelling of some marks behind it, of which the suffix has all but the blanks. -/
theorem split_exact (type : String) :
    (∃ (marks : List Mark) (rest : List Char), Scans type.toList.reverse marks.length rest ∧
      split type =
        (Text.trimEnd (String.ofList rest.reverse), String.join (marks.map Mark.text))) ∧
    ∀ base suffix : String, split type = (base, suffix) ↔
      IsBare base ∧ ∃ (marks : List Mark) (written : String), type = base ++ written ∧
        Spells marks written.toList ∧ suffix = String.join (marks.map Mark.text) := by
  obtain ⟨marks, written, hscan, htype, hwritten, hsuffix⟩ := exists_written type
  refine ⟨⟨marks, strip type.toList.reverse, hscan, Prod.ext (split_fst type) hsuffix⟩,
    fun base suffix => ⟨fun hsplit => ?_, ?_⟩⟩
  · have hbare := isBare_base type
    rw [hsplit] at hbare htype hsuffix
    exact ⟨hbare, marks, written, htype, hwritten, hsuffix⟩
  · rintro ⟨hbare, marks', written', rfl, hwritten', rfl⟩
    exact hbare.split_append hwritten'

/-- A bracket with something else inside ends the scan, and blanks inside of
marks are left out. -/
example : split "Index[0] [ ,\t] ? " = ("Index[0]", "[,]?") := by decide +kernel

end TypeSuffix

end SharpSource
