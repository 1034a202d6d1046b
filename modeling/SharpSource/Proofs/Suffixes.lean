import SharpSource.Manifest.Resolution
import SharpSource.Proofs.Blanks

/-!
# Suffixes one at a time

The type of a member may end in any number of marks: a question mark for a type
with null, brackets with commas for an array. All of them are split off at once,
from the end of the type forwards, and the reference to the base then takes the
whole suffix in one step, which makes an array of it if there is any bracket.

Neither of the two shows. A mark behind a type is split off first and leaves the
rest of the splitting as it was (`TypeSuffix.split_append_mark`), and a suffix
that is taken in two parts makes the same reference
(`TypeRef.withSuffix_append`). So a type with marks behind it is resolved as the
type alone, and then takes the marks one after the other
(`Manifest.resolve_marks`). Blanks do not show either: marks that are spelled
with blanks between their characters are split off as the marks without them
(`TypeSuffix.split_spelled`).
-/

namespace SharpSource

namespace TypeSuffix

/-! ### Marks -/

/-- **A mark** behind a type. -/
inductive Mark where
  /-- A question mark. -/
  | nullable
  /-- The brackets of an array, with as many commas as it has dimensions more
  than one. -/
  | array (commas : Nat)
  deriving DecidableEq, Repr

/-- The characters of a mark. -/
def Mark.chars : Mark → List Char
  | nullable => ['?']
  | array commas => '[' :: (List.replicate commas ',' ++ [']'])

/-- How a mark is written. -/
def Mark.text (m : Mark) : String :=
  String.ofList m.chars

namespace Mark

theorem isBlank_of_mem (m : Mark) : ∀ c ∈ m.chars, Text.isBlank c = false := by
  cases m with
  | nullable => exact List.forall_mem_singleton.mpr (by decide)
  | array commas =>
    simp only [chars, List.mem_cons, List.mem_append, List.mem_replicate, List.not_mem_nil,
      or_false]
    rintro c (rfl | ⟨-, rfl⟩ | rfl)
    · decide
    · decide
    · decide

theorem exists_concat (m : Mark) : ∃ cs c, m.chars = cs ++ [c] ∧ Text.isBlank c = false := by
  cases m with
  | nullable => exact ⟨[], '?', rfl, by decide⟩
  | array commas => exact ⟨'[' :: List.replicate commas ',', ']', rfl, by decide⟩

end Mark

/-- Brackets are taken off with all that may stand between them. -/
theorem stripMark?_brackets {inner : List Char} (h : ∀ c ∈ inner, isFiller c = true)
    (cs : List Char) : stripMark? (']' :: (inner ++ '[' :: cs)) = some cs := by
  have hinside : (inner ++ '[' :: cs).dropWhile isFiller = '[' :: cs := by
    rw [List.dropWhile_append_of_pos h, List.dropWhile_cons_of_neg (by decide)]
  rw [stripMark?, List.dropWhile_cons_of_neg (by decide)]
  simp only [hinside]

/-- **The last mark** is the one that is taken off. -/
theorem stripMark?_mark (m : Mark) (cs : List Char) :
    stripMark? (m.chars.reverse ++ cs) = some cs := by
  cases m with
  | nullable => rfl
  | array commas =>
    have hcommas : ∀ c ∈ List.replicate commas ',', isFiller c = true := fun c hc => by
      rw [List.eq_of_mem_replicate hc]
      rfl
    have hmark : (Mark.array commas).chars.reverse ++ cs =
        ']' :: (List.replicate commas ',' ++ '[' :: cs) := by
      simp [Mark.chars]
    rw [hmark, stripMark?_brackets hcommas]

/-! ### Splitting -/

theorem strip_eq (cs : List Char) :
    strip cs = match stripMark? cs with
      | some rest => strip rest
      | none => cs := by
  rw [strip]
  split <;> simp_all

/-- Blanks at the end hide no mark. -/
theorem stripMark?_blanks {blanks : List Char} (h : ∀ c ∈ blanks, Text.isBlank c = true)
    (cs : List Char) : stripMark? (blanks ++ cs) = stripMark? cs := by
  rw [stripMark?, stripMark?, List.dropWhile_append_of_pos h]

theorem length_strip_le (cs : List Char) : (strip cs).length ≤ cs.length := by
  induction cs using strip.induct with
  | case1 cs rest hrest hlt ih =>
    rw [strip_eq, hrest]
    exact ih.trans hlt.le
  | case2 cs hnone => rw [strip_eq, hnone]

/-- The base of a type has no more characters than the type. -/
theorem length_base_le (cs : List Char) : (strip cs.reverse).reverse.length ≤ cs.length := by
  simpa using length_strip_le cs.reverse

/-- **A mark behind a type** is added to its suffix, and leaves the base as it
is. -/
theorem split_append_mark (type : String) (m : Mark) :
    split (type ++ m.text) = ((split type).1, (split type).2 ++ m.text) := by
  have hstrip : strip (type.toList ++ m.chars).reverse = strip type.toList.reverse := by
    rw [List.reverse_append, strip_eq, stripMark?_mark]
  have hmark : m.chars.filter (!Text.isBlank ·) = m.chars :=
    List.filter_eq_self.mpr fun c hc => by rw [m.isBlank_of_mem c hc, Bool.not_false]
  simp only [split, Mark.text, String.toList_append, String.toList_ofList, hstrip,
    List.drop_append_of_le_length (length_base_le type.toList), List.filter_append, hmark,
    String.ofList_append]

/-- Of blanks nothing goes into a suffix. -/
theorem filter_blanks {blanks : List Char} (h : ∀ c ∈ blanks, Text.isBlank c = true) :
    blanks.filter (!Text.isBlank ·) = [] :=
  List.filter_eq_nil_iff.mpr fun c hc => by simp [h c hc]

/-- **Blanks behind a type** do not count. -/
theorem split_append_blanks (cs : List Char) {blanks : List Char}
    (h : ∀ c ∈ blanks, Text.isBlank c = true) :
    split (String.ofList (cs ++ blanks)) = split (String.ofList cs) := by
  have hreverse : ∀ c ∈ blanks.reverse, Text.isBlank c = true :=
    fun c hc => h c (List.mem_reverse.mp hc)
  have hmarks := stripMark?_blanks hreverse cs.reverse
  cases hstrip : stripMark? cs.reverse with
  | some rest =>
    -- There is a mark, and the blanks stand behind it.
    have hboth : strip (cs ++ blanks).reverse = strip cs.reverse := by
      rw [List.reverse_append, strip_eq, hmarks, strip_eq cs.reverse, hstrip]
    simp only [split, String.toList_ofList, hboth,
      List.drop_append_of_le_length (length_base_le cs), List.filter_append, filter_blanks h,
      List.append_nil]
  | none =>
    -- There is none, and the blanks stand behind the base, which loses them.
    have hboth : strip (cs ++ blanks).reverse = (cs ++ blanks).reverse := by
      rw [List.reverse_append, strip_eq, hmarks, hstrip]
    have hbase : strip cs.reverse = cs.reverse := by
      rw [strip_eq, hstrip]
    simp only [split, String.toList_ofList, hboth, hbase, List.reverse_reverse, List.drop_length,
      Text.dropBlankEnd_append_blanks h]

/-- A mark behind a type is there after trimming. -/
theorem trim_append_mark (type : String) (m : Mark) :
    Text.trim (type ++ m.text) =
      String.ofList (type.toList.dropWhile Text.isBlank) ++ m.text := by
  obtain ⟨cs, c, hchars, hc⟩ := m.exists_concat
  have hfront : m.chars.dropWhile Text.isBlank = m.chars := by
    rw [List.dropWhile_eq_self_iff]
    intro hpos
    rw [m.isBlank_of_mem _ (List.getElem_mem hpos)]
    exact Bool.false_ne_true
  have hdrop : (type.toList ++ m.chars).dropWhile Text.isBlank =
      type.toList.dropWhile Text.isBlank ++ m.chars := by
    rw [List.dropWhile_append, hfront]
    split
    · rename_i hempty
      rw [List.isEmpty_iff.mp hempty, List.nil_append]
    · rfl
  rw [Text.trim, Text.trimChars, String.toList_append, Mark.text, String.toList_ofList, hdrop,
    hchars, ← List.append_assoc, Text.dropBlankEnd_append_cons hc, List.append_assoc,
    String.ofList_append]
  rfl

/-- Blanks around a type do not count, and behind it they need not be taken off
first. -/
theorem split_trim (type : String) :
    split (Text.trim type) = split (String.ofList (type.toList.dropWhile Text.isBlank)) := by
  obtain ⟨blanks, hblanks, hfront⟩ := Text.exists_blanks (type.toList.dropWhile Text.isBlank)
  rw [hfront]
  exact (split_append_blanks _ hblanks).symm

/-- **A mark behind a type** is added to the suffix of the type, whatever blanks
stand around it. -/
theorem split_trim_append_mark (type : String) (m : Mark) :
    split (Text.trim (type ++ m.text)) =
      ((split (Text.trim type)).1, (split (Text.trim type)).2 ++ m.text) := by
  rw [trim_append_mark, split_append_mark, split_trim]

/-! ### Marks with blanks -/

/-- **How marks are spelled**: when the blanks are left out, the text is that of
the marks. So blanks may stand around each mark and inside of it. -/
def Spells (marks : List Mark) (cs : List Char) : Prop :=
  cs.filter (!Text.isBlank ·) = marks.flatMap Mark.chars

instance (marks : List Mark) (cs : List Char) : Decidable (Spells marks cs) :=
  inferInstanceAs (Decidable (_ = _))

/-- The last character that is not blank has blanks behind it. -/
theorem exists_of_filter_eq_concat {cs init : List Char} {c : Char}
    (h : cs.filter (!Text.isBlank ·) = init ++ [c]) :
    ∃ front blanks, cs = front ++ c :: blanks ∧ front.filter (!Text.isBlank ·) = init ∧
      ∀ b ∈ blanks, Text.isBlank b = true := by
  obtain ⟨front, back, rfl, hfront, hback⟩ := List.filter_eq_append_iff.mp h
  obtain ⟨skipped, blanks, rfl, hskipped, -, hblanks⟩ := List.filter_eq_cons_iff.mp hback
  refine ⟨front ++ skipped, blanks, by simp, ?_, fun b hb => ?_⟩
  · rw [List.filter_append, hfront, List.filter_eq_nil_iff.mpr hskipped, List.append_nil]
  · simpa using List.filter_eq_nil_iff.mp hblanks b hb

/-- What may stand between brackets is commas when it is read without blanks. -/
theorem forall_isFiller_iff {cs : List Char} : (∀ c ∈ cs, isFiller c = true) ↔
    ∃ commas, cs.filter (!Text.isBlank ·) = List.replicate commas ',' := by
  simp only [isFiller, Bool.or_eq_true, beq_iff_eq]
  constructor
  · intro h
    refine ⟨_, List.eq_replicate_iff.mpr ⟨rfl, fun c hc => ?_⟩⟩
    obtain ⟨hmem, hsolid⟩ := List.mem_filter.mp hc
    exact (h c hmem).resolve_right (by simpa using hsolid)
  · rintro ⟨commas, hcommas⟩ c hc
    by_cases hblank : Text.isBlank c = true
    · exact Or.inr hblank
    · have hcomma : c ∈ List.replicate commas ',' :=
        hcommas ▸ List.mem_filter.mpr ⟨hc, by simpa using hblank⟩
      exact Or.inl (List.eq_of_mem_replicate hcomma)

/-- **The last mark is taken off** with the blanks behind it and inside of
it. -/
theorem Spells.exists_stripMark? {marks : List Mark} {m : Mark} {cs : List Char}
    (h : Spells (marks ++ [m]) cs) :
    ∃ front more, cs = front ++ more ∧ Spells marks front ∧
      ∀ rest, stripMark? (cs.reverse ++ rest) = some (front.reverse ++ rest) := by
  rw [Spells, List.flatMap_append, List.flatMap_singleton] at h
  cases m with
  | nullable =>
    obtain ⟨front, blanks, rfl, hfront, hblanks⟩ := exists_of_filter_eq_concat h
    refine ⟨front, '?' :: blanks, rfl, hfront, fun rest => ?_⟩
    have hreverse : (front ++ '?' :: blanks).reverse ++ rest =
        blanks.reverse ++ ('?' :: (front.reverse ++ rest)) := by
      simp
    rw [hreverse, stripMark?_blanks fun b hb => hblanks b (List.mem_reverse.mp hb)]
    rfl
  | array commas =>
    -- The closing bracket, then what is between the brackets, then the opening one.
    rw [Mark.chars, ← List.cons_append, ← List.append_assoc] at h
    obtain ⟨opened, blanks, rfl, hopened, hblanks⟩ := exists_of_filter_eq_concat h
    rw [List.append_cons] at hopened
    obtain ⟨start, inner, rfl, hstart, hinner⟩ := List.filter_eq_append_iff.mp hopened
    obtain ⟨front, blanks', rfl, hfront, hblanks'⟩ := exists_of_filter_eq_concat hstart
    have hfill : ∀ c ∈ blanks' ++ inner, isFiller c = true :=
      forall_isFiller_iff.mpr
        ⟨commas, by rw [List.filter_append, filter_blanks hblanks', hinner, List.nil_append]⟩
    refine ⟨front, '[' :: (blanks' ++ inner ++ ']' :: blanks), by simp, hfront, fun rest => ?_⟩
    have hreverse : (front ++ '[' :: blanks' ++ inner ++ ']' :: blanks).reverse ++ rest =
        blanks.reverse ++
          (']' :: ((blanks' ++ inner).reverse ++ '[' :: (front.reverse ++ rest))) := by
      simp
    rw [hreverse, stripMark?_blanks fun b hb => hblanks b (List.mem_reverse.mp hb),
      stripMark?_brackets fun c hc => hfill c (List.mem_reverse.mp hc)]

/-- **All marks are taken off**, and what stays behind the rest of the type are
blanks. -/
theorem Spells.exists_strip {marks : List Mark} {cs : List Char} (h : Spells marks cs) :
    ∃ blanks more, cs = blanks ++ more ∧ (∀ b ∈ blanks, Text.isBlank b = true) ∧
      ∀ rest, strip (cs.reverse ++ rest) = strip (blanks.reverse ++ rest) := by
  induction marks using List.reverseRecOn generalizing cs with
  | nil =>
    have hblanks : ∀ b ∈ cs, Text.isBlank b = true := fun b hb => by
      simpa using List.filter_eq_nil_iff.mp h b hb
    exact ⟨cs, [], by simp, hblanks, fun rest => rfl⟩
  | append_singleton marks m ih =>
    obtain ⟨front, more, rfl, hfront, hmark⟩ := h.exists_stripMark?
    obtain ⟨blanks, more', rfl, hblanks, hstrip⟩ := ih hfront
    refine ⟨blanks, more' ++ more, by simp, hblanks, fun rest => ?_⟩
    rw [strip_eq, hmark]
    exact hstrip rest

/-- The characters of some marks are those of their texts. -/
theorem ofList_flatMap_chars (marks : List Mark) :
    String.ofList (marks.flatMap Mark.chars) = String.join (marks.map Mark.text) := by
  rw [← String.toList_inj, String.toList_ofList, String.toList_join, List.flatMap_map]
  exact congrArg (marks.flatMap ·) (funext fun m => by rw [Mark.text, String.toList_ofList])

/-- **A base and marks behind it are split from each other**, however the marks
are spelled, when the base ends in no mark and in no blank. -/
theorem split_spelled {base suffix : String} {marks : List Mark}
    (hbase : stripMark? base.toList.reverse = none)
    (hend : ∀ c ∈ base.toList.getLast?, Text.isBlank c = false)
    (h : Spells marks suffix.toList) :
    split (base ++ suffix) = (base, String.join (marks.map Mark.text)) := by
  obtain ⟨blanks, more, hsuffix, hblanks, hmarksOff⟩ := h.exists_strip
  have hstrip : strip (suffix.toList.reverse ++ base.toList.reverse) =
      blanks.reverse ++ base.toList.reverse := by
    rw [hmarksOff, strip_eq, stripMark?_blanks fun b hb => hblanks b (List.mem_reverse.mp hb),
      hbase]
  have hcs : (base ++ suffix).toList = base.toList ++ blanks ++ more := by
    rw [String.toList_append, hsuffix, List.append_assoc]
  have hleft : (strip (base ++ suffix).toList.reverse).reverse = base.toList ++ blanks := by
    rw [String.toList_append, List.reverse_append, hstrip]
    simp
  have hmarks : more.filter (!Text.isBlank ·) = marks.flatMap Mark.chars := by
    rw [← h, hsuffix, List.filter_append, filter_blanks hblanks, List.nil_append]
  simp only [split, hleft]
  rw [Text.dropBlankEnd_append_blanks hblanks, Text.dropBlankEnd_eq_self hend,
    String.ofList_toList, hcs, List.drop_left, hmarks, ofList_flatMap_chars]

end TypeSuffix

/-! ### Taking a suffix -/

namespace TypeRef

/-- **What a suffix makes of a reference.** It is written behind all three
names; a bracket in it makes an array, and question marks alone make a value
nullable. -/
theorem withSuffix_eq (t : TypeRef) {s : String} (hblank : ∀ c ∈ s.toList, Text.isBlank c = false)
    (hs : s ≠ "") : t.withSuffix s =
      { name := t.name ++ s
        qualifiedName := t.qualifiedName ++ s
        isValue := if '[' ∈ s.toList then false else t.isValue
        kind := if '[' ∈ s.toList then .arrayType else t.kind
        special := if '[' ∈ s.toList then .ordinary else if t.isValue then .nullable else t.special
        explicitName := some (t.sourceName ++ s) } := by
  rw [withSuffix, Text.trim_eq_self hblank, if_neg hs]
  by_cases hbracket : '[' ∈ s.toList
  · simp only [if_pos hbracket]
  · simp only [if_neg hbracket]
    by_cases hvalue : t.isValue
    · simp only [if_pos hvalue]
    · simp only [if_neg hvalue]

theorem withSuffix_empty (t : TypeRef) : t.withSuffix "" = t := by
  rw [withSuffix]
  exact if_pos rfl

/-- **A suffix in two parts** makes the same reference as the whole: a bracket
in either of them makes an array, and what one question mark did to a value is
not changed by another. -/
theorem withSuffix_append (t : TypeRef) {a b : String}
    (ha : ∀ c ∈ a.toList, Text.isBlank c = false) (hb : ∀ c ∈ b.toList, Text.isBlank c = false) :
    t.withSuffix (a ++ b) = (t.withSuffix a).withSuffix b := by
  by_cases haempty : a = ""
  · rw [haempty, String.empty_append, withSuffix_empty]
  by_cases hbempty : b = ""
  · rw [hbempty, String.append_empty, withSuffix_empty]
  have hab : ∀ c ∈ (a ++ b).toList, Text.isBlank c = false := by
    rw [String.toList_append]
    exact fun c hc => (List.mem_append.mp hc).elim (ha c) (hb c)
  have habempty : a ++ b ≠ "" := fun h => haempty (String.append_eq_empty_iff.mp h).1
  rw [withSuffix_eq t hab habempty, withSuffix_eq t ha haempty, withSuffix_eq _ hb hbempty]
  simp only [sourceName, Option.getD_some, String.append_assoc, String.toList_append,
    List.mem_append]
  by_cases hbracket : '[' ∈ a.toList
  · simp [hbracket]
  · by_cases hbracket' : '[' ∈ b.toList
    · simp [hbracket']
    · by_cases hvalue : t.isValue
      · simp [hbracket, hbracket', hvalue]
      · simp [hbracket, hbracket', hvalue]

end TypeRef

/-! ### Resolving a type with marks -/

open TypeSuffix (Mark)

namespace Manifest

theorem isBlank_of_mem_suffix {type : String} {c : Char}
    (h : c ∈ (TypeSuffix.split type).2.toList) : Text.isBlank c = false := by
  rw [TypeSuffix.split, String.toList_ofList] at h
  simpa using (List.mem_filter.mp h).2

/-- **One mark**: a type with a mark behind it stands for what the type stands
for, with the mark as its suffix. -/
theorem resolve_append_mark (m : Manifest) (type : String) (mark : Mark) :
    m.resolve (type ++ mark.text) = (m.resolve type).withSuffix mark.text := by
  have hmark : ∀ c ∈ mark.text.toList, Text.isBlank c = false := by
    rw [Mark.text, String.toList_ofList]
    exact mark.isBlank_of_mem
  rw [resolve, TypeSuffix.split_trim_append_mark]
  exact TypeRef.withSuffix_append _ (fun c hc => isBlank_of_mem_suffix hc) hmark

/-- **A type is resolved mark by mark.** In any manifest, a type with a mark
behind it stands for the reference that the type stands for, after this has
taken the mark as a suffix: the two agree in all that references have, the name,
the qualified name, the name that source writes, the kind, the special type, and
whether instances are values. So a type with any number of marks behind it
stands for the reference that has taken them one after the other. -/
theorem resolve_marks (m : Manifest) (type : String) :
    (∀ mark : Mark, m.resolve (type ++ mark.text) = (m.resolve type).withSuffix mark.text) ∧
    ∀ marks : List Mark, m.resolve (type ++ String.join (marks.map Mark.text)) =
      marks.foldl (fun t mark => t.withSuffix mark.text) (m.resolve type) := by
  refine ⟨m.resolve_append_mark type, fun marks => ?_⟩
  induction marks generalizing type with
  | nil => rw [List.map_nil, String.join_nil, String.append_empty, List.foldl_nil]
  | cons mark marks ih =>
    rw [List.map_cons, String.join_cons, ← String.append_assoc, ih, List.foldl_cons,
      m.resolve_append_mark]

end Manifest

end SharpSource
