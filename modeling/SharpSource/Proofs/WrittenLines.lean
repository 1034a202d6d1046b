import SharpSource.Proofs.Shift

/-!
# What a writer makes of a text

A text may hold several lines, and level zero treats them in another way than
all other levels. There the text is written as it stands, and is not even split.
Deeper it is split at its line feeds, each piece loses a carriage return at its
end, and takes the margin in front.

Both come to one form (`Layout.lineText_eq_ended`): the pieces of the text, each
made into a line as the level has it, and a line feed behind each of them.
Pieces of a text with a line feed in its middle are those in front of it and
those behind it, so it does not matter whether a text is written at once or in
two parts (`Layout.lineText_append`). And the lines can be read off what was
written, margin and all, as long as the margin has no line feeds of its own
(`Layout.split_ended`).
-/

namespace SharpSource

namespace Layout

open Writer (margin lineText)

variable {i : Indent}

/-! ### Lines and pieces -/

/-- What becomes of one line of a text at a level. -/
def lineAt (i : Indent) (level : Nat) (w : List Char) : String :=
  if level = 0 then String.ofList w
  else margin i level ++ String.ofList (Text.dropFinal '\r' w)

theorem lineText_eq_ended (i : Indent) (level : Nat) (s : String) :
    lineText i level s = ended ((Text.pieces (· == '\n') s.toList).map (lineAt i level)) := by
  cases level with
  | zero => exact (ended_split s).symm
  | succ level =>
    rw [lineText, if_neg (Nat.succ_ne_zero level), ended, List.map_map]
    rfl

/-- **A text is written at once as in two parts**: with a line feed between
them, they are written as if each were written by itself. -/
theorem lineText_append (i : Indent) (level : Nat) (s t : String) :
    lineText i level (s ++ "\n" ++ t) = lineText i level s ++ lineText i level t := by
  have hpieces : Text.pieces (· == '\n') (s ++ "\n" ++ t).toList =
      Text.pieces (· == '\n') s.toList ++ Text.pieces (· == '\n') t.toList := by
    rw [← Text.pieces_append_cons (c := '\n') rfl]
    simp
  rw [lineText_eq_ended, lineText_eq_ended, lineText_eq_ended, hpieces, List.map_append,
    ended_append]

/-- Texts that are joined by line feeds are written as if each were written by
itself. -/
theorem lineText_intercalate (i : Indent) (level : Nat) {ls : List String} (h : ls ≠ []) :
    lineText i level ("\n".intercalate ls) = linesText i level ls := by
  induction ls with
  | nil => exact absurd rfl h
  | cons l ls ih =>
    cases ls with
    | nil => simp [linesText]
    | cons l' ls =>
      rw [String.intercalate_cons_cons, lineText_append, ih (List.cons_ne_nil _ _)]
      simp [linesText]

/-- A text of one line that keeps all of its characters stands behind the margin
as it is. -/
theorem lineText_eq_margin_append {s : String} (hfeed : '\n' ∉ s.toList)
    (hreturn : s.toList.getLast? ≠ some '\r') (level : Nat) :
    lineText i level s = margin i level ++ s ++ "\n" := by
  have hline : lineAt i level s.toList = margin i level ++ s := by
    cases level with
    | zero => simp [lineAt, margin]
    | succ level => simp [lineAt, Text.dropFinal, hreturn]
  rw [lineText_eq_ended, Text.pieces_eq_singleton hfeed, List.map_singleton, hline]
  simp [ended]

theorem linesText_eq_ended {ls : List String}
    (h : ∀ l ∈ ls, '\n' ∉ l.toList ∧ l.toList.getLast? ≠ some '\r') (level : Nat) :
    linesText i level ls = ended (ls.map (margin i level ++ ·)) := by
  rw [linesText, ended, List.map_map]
  exact congrArg String.join (List.map_congr_left fun l hl =>
    lineText_eq_margin_append (h l hl).1 (h l hl).2 level)

/-! ### The margin -/

theorem toList_margin (i : Indent) (level : Nat) :
    (margin i level).toList = List.replicate (level * i.width) i.char := by
  induction level with
  | zero => simp [margin]
  | succ level ih =>
    rw [margin_succ, String.toList_append, ih, Indent.unit, String.toList_ofList,
      List.replicate_append_replicate, Nat.succ_mul, Nat.add_comm]

/-- A unit without line feeds is made of another character. -/
theorem char_ne_of_not_mem_unit (h : '\n' ∉ i.unit.toList) : i.char ≠ '\n' := by
  rintro hchar
  refine h ?_
  rw [Indent.unit, String.toList_ofList, List.mem_replicate]
  exact ⟨Nat.pos_iff_ne_zero.mp i.width_pos, hchar.symm⟩

/-- A line of a text has no line feeds, when there are none in the margin. -/
theorem not_mem_lineAt (hi : i.char ≠ '\n') (level : Nat) {w : List Char} (hw : '\n' ∉ w) :
    '\n' ∉ (lineAt i level w).toList := by
  rw [lineAt]
  split
  · rwa [String.toList_ofList]
  · rw [String.toList_append, String.toList_ofList, List.mem_append, not_or]
    exact ⟨not_mem_margin hi level, fun hmem => hw (Text.mem_of_mem_dropFinal hmem)⟩

/-- **Lines are read off a text that ends each of them**: splitting it gives the
lines, and nothing behind the last line feed. -/
theorem split_ended {ls : List String} (h : ∀ l ∈ ls, '\n' ∉ l.toList) :
    Text.split '\n' (ended ls) = ls ++ [""] := by
  induction ls with
  | nil => rfl
  | cons l ls ih =>
    rw [List.forall_mem_cons] at h
    have hcons : ended (l :: ls) = l ++ "\n" ++ ended ls := ended_append [l] ls
    have hpieces : Text.pieces (· == '\n') (l ++ "\n" ++ ended ls).toList =
        l.toList :: Text.pieces (· == '\n') (ended ls).toList := by
      rw [← List.singleton_append, ← Text.pieces_eq_singleton h.1,
        ← Text.pieces_append_cons (c := '\n') rfl]
      simp
    rw [hcons, Text.split, hpieces, List.map_cons, String.ofList_toList]
    exact congrArg (l :: ·) (ih h.2)

end Layout

/-! ### The law of written lines -/

namespace Writer

open Layout (lineAt lineText_append lineText_eq_ended)

/-- **The law of written lines.** In any state, a text with a line feed in its
middle is written as its two parts one after the other. And at any level but
zero, with an indentation that has no line feeds of its own, what is written of
a text consists of whole lines. Each of them starts with the unit of
indentation, as many times as the level says, and without that they are the
pieces of the text between its line feeds, each without one carriage return at
its end. -/
theorem line_law (w : Writer) :
    (∀ s t : String, w.line (s ++ "\n" ++ t) = (w.line s).line t) ∧
    ('\n' ∉ w.indent.unit.toList → 1 ≤ w.level → ∀ s : String,
      ∃ (added : String) (lines : List String), (w.line s).text = w.text ++ added ∧
        Text.split '\n' added = lines ++ [""] ∧
        (∀ l ∈ lines, Text.startsWith (margin w.indent w.level) l = true) ∧
        lines.map (fun l => l.toList.drop (margin w.indent w.level).toList.length) =
          (Text.pieces (· == '\n') s.toList).map (Text.dropFinal '\r')) := by
  constructor
  · intro s t
    rw [line, lineText_append]
    simp only [line, put, String.append_assoc]
  · intro hunit hlevel s
    have hdeep : ∀ v, lineAt w.indent w.level v =
        margin w.indent w.level ++ String.ofList (Text.dropFinal '\r' v) := fun v =>
      if_neg (by omega)
    refine ⟨_, (Text.pieces (· == '\n') s.toList).map (lineAt w.indent w.level), text_line w s, ?_,
      ?_, ?_⟩
    · rw [lineText_eq_ended]
      refine Layout.split_ended fun l hl => ?_
      obtain ⟨v, hv, rfl⟩ := List.mem_map.mp hl
      exact Layout.not_mem_lineAt (Layout.char_ne_of_not_mem_unit hunit) _
        (Text.not_mem_of_mem_pieces hv)
    · intro l hl
      obtain ⟨v, -, rfl⟩ := List.mem_map.mp hl
      rw [hdeep, Text.startsWith_iff, String.toList_append]
      exact List.prefix_append ..
    · rw [List.map_map]
      refine List.map_congr_left fun v _ => ?_
      rw [Function.comp_apply, hdeep, String.toList_append, List.drop_left, String.toList_ofList]

/-- A text with an empty piece, one that ends in two carriage returns, and an
empty one at its end. -/
theorem line_law_returns :
    let w : Writer := { text := "class A\n", level := 2, indent := .tab }
    '\n' ∉ w.indent.unit.toList ∧ 1 ≤ w.level ∧
      (w.line "int x;\r\n\ny;\r\r\n").text = "class A\n\t\tint x;\n\t\t\n\t\ty;\r\n\t\t\n" ∧
      ∃ (added : String) (lines : List String),
        (w.line "int x;\r\n\ny;\r\r\n").text = w.text ++ added ∧
        Text.split '\n' added = lines ++ [""] ∧
        (∀ l ∈ lines, Text.startsWith (margin w.indent w.level) l = true) ∧
        lines.map (fun l => l.toList.drop (margin w.indent w.level).toList.length) =
          ["int x;".toList, [], "y;\r".toList, []] := by
  intro w
  have hunit : '\n' ∉ w.indent.unit.toList := by decide +kernel
  have hpieces : (Text.pieces (· == '\n') "int x;\r\n\ny;\r\r\n".toList).map (Text.dropFinal '\r') =
      ["int x;".toList, [], "y;\r".toList, []] := by decide +kernel
  refine ⟨hunit, by decide, by decide +kernel, ?_⟩
  rw [← hpieces]
  exact (line_law w).2 hunit (by decide) _

end Writer

end SharpSource
