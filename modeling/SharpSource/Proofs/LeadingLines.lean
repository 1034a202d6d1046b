import SharpSource.Declaration.Leading
import SharpSource.Proofs.Blanks
import SharpSource.Proofs.LineEnds
import SharpSource.Proofs.Splitting

/-!
# The lines that lead a declaration

The declaration of a target may have several lines, and all but the last lead
it. They are cut off at the last line feed, read as lines and joined again. The
two ways of reading do not quite fit: in front of the last line feed a text is
cut off, and of a text an empty piece at the end is no line. So a line that is
empty and stands right above the declaration is lost, unless it is the only one
(`Declaration.LosesLine`). A carriage return in it is enough to keep it, though
the return itself is dropped.

All else is kept, and each line is written with the margin in front and without
the carriage returns at its end (`Declaration.linesText_leading`). The lemma
that says which lines there are is `Text.linesOfPieces_concat`.
-/

namespace SharpSource

open Layout
open Writer (margin)

namespace Declaration

/-! ### Lines, bare lines and kept lines -/

/-- The lines of a declaration, which is taken without the blanks it ends in. -/
def linesOf (declaration : String) : List String :=
  Text.split '\n' (Text.trimEnd declaration)

/-- A line without the carriage returns it ends in. -/
def bareLine (l : String) : String :=
  String.ofList (Text.dropFinals '\r' l.toList)

/-- **The last of some leading lines is lost** when it is empty and there are
others. -/
def LosesLine (above : List String) : Prop :=
  2 ≤ above.length ∧ above.getLast? = some ""

instance (above : List String) : Decidable (LosesLine above) := by
  unfold LosesLine
  infer_instance

/-- The leading lines that are kept. -/
def keptLines (above : List String) : List String :=
  if LosesLine above then above.dropLast else above

theorem exists_linesOf_eq (declaration : String) :
    ∃ above last, linesOf declaration = above ++ [last] := by
  rcases (linesOf declaration).eq_nil_or_concat' with hnil | ⟨above, last, hlines⟩
  · rw [linesOf, Text.split, List.map_eq_nil_iff] at hnil
    exact absurd hnil (Text.pieces_ne_nil _ _)
  · exact ⟨above, last, hlines⟩

theorem not_mem_of_mem_linesOf {declaration l : String} (h : l ∈ linesOf declaration) :
    '\n' ∉ l.toList := by
  obtain ⟨w, hw, rfl⟩ := List.mem_map.mp h
  rw [String.toList_ofList]
  exact Text.not_mem_of_mem_pieces hw

theorem bareLine_eq_self {l : String} (h : l.toList.getLast? ≠ some '\r') : bareLine l = l := by
  rw [bareLine, Text.dropFinals_eq_self h, String.ofList_toList]

theorem bareLine_dropFinal (w : List Char) :
    bareLine (String.ofList (Text.dropFinal '\r' w)) = bareLine (String.ofList w) := by
  rw [bareLine, bareLine, String.toList_ofList, String.toList_ofList, Text.dropFinals_dropFinal]

section

variable {above : List String} {l : String}

theorem LosesLine.ne_nil (h : LosesLine above) : above ≠ [] := by
  rintro rfl
  exact absurd h.1 (by decide)

theorem losesLine_concat : LosesLine (above ++ [l]) ↔ above ≠ [] ∧ l = "" := by
  rw [LosesLine, List.length_append, List.getLast?_concat, ← List.length_pos_iff,
    Option.some_inj, List.length_singleton, Nat.succ_le_succ_iff]
  rfl

theorem keptLines_concat_of_ne (h : l ≠ "") : keptLines (above ++ [l]) = above ++ [l] := by
  rw [keptLines, if_neg]
  rw [losesLine_concat]
  exact fun hloses => h hloses.2

theorem keptLines_concat_empty (h : above ≠ []) : keptLines (above ++ [""]) = above := by
  rw [keptLines, if_pos (losesLine_concat.mpr ⟨h, rfl⟩), List.dropLast_concat]

theorem length_keptLines_iff : (keptLines above).length = above.length ↔ ¬LosesLine above := by
  rw [keptLines]
  split
  · rename_i hloses
    have hlength := hloses.1
    rw [List.length_dropLast]
    exact iff_of_false (by omega) (not_not.mpr hloses)
  · rename_i hkept
    exact iff_of_true rfl hkept

theorem keptLines_subset : keptLines above ⊆ above := by
  rw [keptLines]
  split
  · exact (List.dropLast_sublist above).subset
  · exact List.Subset.refl above

theorem keptLines_ne_nil (h : above ≠ []) : keptLines above ≠ [] := by
  obtain ⟨before, l, rfl⟩ := above.eq_nil_or_concat'.resolve_left h
  rw [keptLines]
  split
  · rename_i hloses
    rw [List.dropLast_concat]
    exact (losesLine_concat.mp hloses).1
  · exact h

end

/-! ### Cutting at the last line feed -/

theorem cutLastLine_of_not_mem {cs : List Char} (h : '\n' ∉ cs) : cutLastLine cs = (none, cs) := by
  have hnone : cs.reverse.dropWhile (· != '\n') = [] := by
    rw [List.dropWhile_eq_nil_iff]
    intro c hc
    exact bne_iff_ne.mpr (ne_of_mem_of_not_mem (List.mem_reverse.mp hc) h)
  rw [cutLastLine, hnone]

theorem cutLastLine_append_cons {last : List Char} (h : '\n' ∉ last) (before : List Char) :
    cutLastLine (before ++ '\n' :: last) = (some before, last) := by
  have hlast : ∀ c ∈ last.reverse, (c != '\n') = true := fun c hc =>
    bne_iff_ne.mpr (ne_of_mem_of_not_mem (List.mem_reverse.mp hc) h)
  have hreverse : (before ++ '\n' :: last).reverse = last.reverse ++ '\n' :: before.reverse := by
    simp
  rw [cutLastLine, hreverse, List.dropWhile_append_of_pos hlast, List.takeWhile_append_of_pos hlast]
  simp

/-- What is cut off are the pieces in front of the last one. -/
theorem cutLastLine_eq {cs last : List Char} {before : List (List Char)}
    (h : Text.pieces (· == '\n') cs = before ++ [last]) :
    cutLastLine cs = (if before = [] then none else some (['\n'].intercalate before), last) := by
  have hmem : last ∈ Text.pieces (· == '\n') cs := by simp [h]
  have hlast : '\n' ∉ last := Text.not_mem_of_mem_pieces hmem
  have hcs : ['\n'].intercalate (before ++ [last]) = cs := by
    rw [← h, Text.intercalate_pieces]
  by_cases hbefore : before = []
  · subst hbefore
    obtain rfl : last = cs := by simpa using hcs
    rw [cutLastLine_of_not_mem hlast, if_pos rfl]
  · rw [Text.intercalate_append_of_ne_nil _ hbefore (List.cons_ne_nil _ _)] at hcs
    rw [if_neg hbefore, ← hcs]
    simpa using cutLastLine_append_cons hlast (['\n'].intercalate before)

/-! ### What leads -/

/-- Joined with an empty line at the end, lines have one more line feed behind
them. -/
theorem intercalate_concat_empty {ls : List String} (h : ls ≠ []) :
    "\n".intercalate (ls ++ [""]) = "\n".intercalate ls ++ "\n" := by
  rw [← String.append_left_inj "\n", ← ended_eq_intercalate h, ← ended_eq_intercalate (by simp),
    ended_append]
  rfl

/-- Reading pieces as lines and joining these keeps the lines that are kept. -/
theorem intercalate_linesOfPieces {before : List (List Char)} (h : before ≠ []) :
    "\n".intercalate ((Text.linesOfPieces before).map fun w => bareLine (String.ofList w)) =
      "\n".intercalate ((keptLines (before.map String.ofList)).map bareLine) := by
  obtain ⟨ws, w, rfl⟩ := before.eq_nil_or_concat'.resolve_left h
  have hbare : (ws.map (Text.dropFinal '\r')).map (fun w => bareLine (String.ofList w)) =
      (ws.map String.ofList).map bareLine := by
    rw [List.map_map, List.map_map]
    exact List.map_congr_left fun w _ => bareLine_dropFinal w
  rw [Text.linesOfPieces_concat, List.map_append, List.map_append, hbare, List.map_singleton]
  by_cases hw : w = []
  · subst hw
    rw [if_pos rfl]
    by_cases hws : ws = []
    · -- One empty line and no line at all are joined to the same text.
      subst hws
      rfl
    · rw [String.ofList_nil, keptLines_concat_empty (by simpa using hws)]
      simp
  · rw [if_neg hw, keptLines_concat_of_ne (by simpa using hw)]
    simp

variable {declaration last : String} {above : List String}

/-- The lines that are kept are joined to the same text as all lines only when
all are kept. -/
theorem intercalate_keptLines_iff :
    "\n".intercalate ((keptLines above).map bareLine) = "\n".intercalate (above.map bareLine) ↔
      ¬LosesLine above := by
  by_cases hloses : LosesLine above
  · obtain ⟨before, l, rfl⟩ := above.eq_nil_or_concat'.resolve_left hloses.ne_nil
    obtain ⟨hbefore, rfl⟩ := losesLine_concat.mp hloses
    have hne : before.map bareLine ≠ [] := by simpa using hbefore
    have hfeed := intercalate_concat_empty hne
    have hbare : (before ++ [""]).map bareLine = before.map bareLine ++ [""] := List.map_append
    rw [keptLines_concat_empty hbefore, hbare, hfeed]
    refine iff_of_false (fun heq => ?_) (not_not.mpr hloses)
    simpa using congrArg String.length heq
  · rw [keptLines, if_neg hloses]
    exact iff_of_true rfl hloses

/-- **What leads a declaration** are its lines but the last, without their
carriage returns and without the one that is lost. -/
theorem splitLeading_eq (h : linesOf declaration = above ++ [last]) :
    splitLeading declaration =
      (if above = [] then none else some ("\n".intercalate ((keptLines above).map bareLine)),
        last) := by
  rw [linesOf, Text.split, List.map_eq_append_iff] at h
  obtain ⟨before, _, hpieces, rfl, hlast⟩ := h
  obtain ⟨cs, rfl, rfl⟩ := List.map_eq_singleton_iff.mp hlast
  rw [Text.trimEnd, String.toList_ofList] at hpieces
  have hfeeds : ∀ w ∈ before, '\n' ∉ w := fun w hw =>
    Text.not_mem_of_mem_pieces (by rw [hpieces]; exact List.mem_append_left _ hw)
  have hend : cs.getLast? ≠ some '\r' := by
    -- The last line ends the trimmed text, and a carriage return is blank.
    intro hreturn
    obtain ⟨front, hfront⟩ := Text.suffix_of_pieces hpieces
    have hlast : (Text.dropBlankEnd declaration.toList).getLast? = some '\r' := by
      rw [← hfront, List.getLast?_append, hreturn]
      rfl
    exact absurd (Text.isBlank_getLast?_dropBlankEnd _ hlast) (by decide)
  rw [splitLeading, cutLastLine_eq hpieces]
  simp only [Text.dropFinals_eq_self hend, List.map_eq_nil_iff]
  by_cases hbefore : before = []
  · rw [if_pos hbefore, if_pos hbefore]
    rfl
  · rw [if_neg hbefore, if_neg hbefore, Option.map_some, Text.lines, String.toList_ofList,
      Text.pieces_intercalate hbefore hfeeds, List.map_map, ← intercalate_linesOfPieces hbefore]
    rfl

/-- **How leading lines are written**: each by itself, behind the margin. -/
theorem linesText_leading (h : linesOf declaration = above ++ [last]) (i : Indent) (level : Nat) :
    linesText i level (splitLeading declaration).1.toList =
      ended ((keptLines above).map fun l => margin i level ++ bareLine l) := by
  have hplain : ∀ l ∈ (keptLines above).map bareLine,
      '\n' ∉ l.toList ∧ l.toList.getLast? ≠ some '\r' := by
    intro l hl
    obtain ⟨l', hl', rfl⟩ := List.mem_map.mp hl
    have hfeed : '\n' ∉ l'.toList :=
      not_mem_of_mem_linesOf (h ▸ List.mem_append_left _ (keptLines_subset hl'))
    rw [bareLine, String.toList_ofList]
    exact ⟨fun hmem => hfeed (Text.mem_of_mem_dropFinals hmem),
      Text.getLast?_dropFinals_ne '\r' l'.toList⟩
  rw [splitLeading_eq h]
  by_cases habove : above = []
  · subst habove
    rfl
  · have hne : (keptLines above).map bareLine ≠ [] := by
      simpa using keptLines_ne_nil habove
    have hlines := linesText_eq_ended (i := i) hplain level
    rw [← lineText_intercalate i level hne, List.map_map] at hlines
    rw [if_neg habove, Option.toList_some, linesText, List.map_singleton]
    simpa [Function.comp_def] using hlines

/-- **Which leading lines are kept.** The last line of a declaration declares.
What leads it are all the lines above, each without the carriage returns it ends
in and joined by line feeds, exactly when the last of them is not an empty line
with others above it; in that case this one is missing, and nothing else. One
line is written for each that is kept. -/
theorem splitLeading_keeps_iff (declaration : String) :
    ∃ above last, linesOf declaration = above ++ [last] ∧
      (splitLeading declaration).2 = last ∧
      ((splitLeading declaration).1 = none ↔ above = []) ∧
      ((splitLeading declaration).1 =
          (if above = [] then none else some ("\n".intercalate (above.map bareLine))) ↔
        ¬LosesLine above) ∧
      (LosesLine above → (splitLeading declaration).1 =
        some ("\n".intercalate (above.dropLast.map bareLine))) ∧
      ((keptLines above).length + 1 = (linesOf declaration).length ↔ ¬LosesLine above) ∧
      ∀ w : Writer, w.lines (splitLeading declaration).1.toList =
        w.put (ended ((keptLines above).map fun l => margin w.indent w.level ++ bareLine l)) := by
  obtain ⟨above, last, hlines⟩ := exists_linesOf_eq declaration
  have hsplit := splitLeading_eq hlines
  refine ⟨above, last, hlines, congrArg Prod.snd hsplit, ?_, ?_, fun hloses => ?_, ?_,
    fun w => by rw [Writer.lines_eq_put, linesText_leading hlines]⟩
  · rw [hsplit]
    by_cases habove : above = [] <;> simp [habove]
  · rw [hsplit]
    by_cases habove : above = []
    · subst habove
      exact iff_of_true rfl fun hloses => hloses.ne_nil rfl
    · rw [if_neg habove, if_neg habove, Option.some_inj, intercalate_keptLines_iff]
  · rw [hsplit, if_neg hloses.ne_nil, keptLines, if_pos hloses]
  · rw [hlines, List.length_append, List.length_singleton, Nat.add_right_cancel_iff,
      length_keptLines_iff]

/-- The empty line above a class is lost; with a carriage return in it, it is
there. -/
theorem splitLeading_loses_blank :
    linesOf "// note\n\npublic class Order" = ["// note", "", "public class Order"] ∧
      splitLeading "// note\n\npublic class Order" = (some "// note", "public class Order") ∧
      splitLeading "// note\r\n\r\npublic class Order" = (some "// note\n", "public class Order") ∧
      (splitLeading "// note\n\npublic class Order").1 ≠
        some ("\n".intercalate (["// note", ""].map bareLine)) := by
  decide +kernel

end Declaration

end SharpSource
