import Mathlib.Data.List.DropRight
import SharpSource.Text.Basic

/-!
# Pieces and lines of a text

A text is cut at some character into pieces, which hold all of it but that
character (`Text.mem_pieces_of_mem`) and which give it back when they are joined
(`Text.intercalate_pieces`). Lines are pieces without the carriage returns that
they end in, and without the last piece where nothing is in it
(`Text.linesOfPieces_concat`).
-/

namespace SharpSource.Text

/-! ### Pieces -/

theorem pieces_eq_splitOnP (p : Char → Bool) (cs : List Char) : pieces p cs = cs.splitOnP p := by
  induction cs with
  | nil => rfl
  | cons c cs ih =>
    rw [pieces, List.splitOnP_cons_eq_if_modifyHead, ← ih]
    cases hpieces : pieces p cs with
    | nil => exact absurd hpieces (pieces_ne_nil p cs)
    | cons w ws => rfl

/-- The character that a text is split at is in none of the pieces. -/
theorem not_mem_of_mem_pieces {c : Char} {cs w : List Char} (h : w ∈ pieces (· == c) cs) :
    c ∉ w := by
  induction cs generalizing w with
  | nil =>
    rw [pieces, List.mem_singleton] at h
    simp [h]
  | cons d cs ih =>
    rw [pieces] at h
    obtain ⟨v, vs, hpieces⟩ := List.exists_cons_of_ne_nil (pieces_ne_nil (· == c) cs)
    rw [hpieces] at ih h
    by_cases hd : d = c
    · rw [if_pos (beq_iff_eq.mpr hd)] at h
      rcases List.mem_cons.mp h with rfl | h
      · exact List.not_mem_nil
      · exact ih h
    · rw [if_neg (by simpa using hd)] at h
      rcases List.mem_cons.mp h with rfl | h
      · rw [List.mem_cons, not_or]
        exact ⟨Ne.symm hd, ih (List.mem_cons_self ..)⟩
      · exact ih (List.mem_cons_of_mem _ h)

theorem mem_of_mem_pieces {p : Char → Bool} {cs w : List Char} (h : w ∈ pieces p cs) {c : Char}
    (hc : c ∈ w) : c ∈ cs := by
  induction cs generalizing w with
  | nil =>
    rw [pieces, List.mem_singleton] at h
    exact h ▸ hc
  | cons d cs ih =>
    rw [pieces] at h
    obtain ⟨v, vs, hpieces⟩ := List.exists_cons_of_ne_nil (pieces_ne_nil p cs)
    rw [hpieces] at ih h
    split at h
    · rcases List.mem_cons.mp h with rfl | h
      · cases hc
      · exact List.mem_cons_of_mem _ (ih h hc)
    · rcases List.mem_cons.mp h with rfl | h
      · exact (List.mem_cons.mp hc).elim (fun heq => heq ▸ List.mem_cons_self ..)
          fun hc => List.mem_cons_of_mem _ (ih (List.mem_cons_self ..) hc)
      · exact List.mem_cons_of_mem _ (ih (List.mem_cons_of_mem _ h) hc)

/-- A character of a text is where it is split, or in one of the pieces. -/
theorem mem_pieces_of_mem {p : Char → Bool} {c : Char} {cs : List Char} (h : c ∈ cs) :
    p c = true ∨ ∃ w ∈ pieces p cs, c ∈ w := by
  induction cs with
  | nil => cases h
  | cons d cs ih =>
    rw [pieces]
    by_cases hd : p d = true
    · rw [if_pos hd]
      rcases List.mem_cons.mp h with rfl | h
      · exact Or.inl hd
      · refine (ih h).imp_right ?_
        rintro ⟨w, hw, hc⟩
        exact ⟨w, List.mem_cons_of_mem _ hw, hc⟩
    · rw [if_neg hd]
      obtain ⟨w, ws, hws⟩ := List.exists_cons_of_ne_nil (pieces_ne_nil p cs)
      simp only [hws]
      rcases List.mem_cons.mp h with rfl | h
      · exact Or.inr ⟨_, List.mem_cons_self .., List.mem_cons_self ..⟩
      · rcases ih h with hp | ⟨v, hv, hc⟩
        · exact Or.inl hp
        · rw [hws] at hv
          rcases List.mem_cons.mp hv with rfl | hv
          · exact Or.inr ⟨_, List.mem_cons_self .., List.mem_cons_of_mem _ hc⟩
          · exact Or.inr ⟨v, List.mem_cons_of_mem _ hv, hc⟩

/-- Texts without the divider are the pieces of the text that they are joined
to. -/
theorem pieces_intercalate {c : Char} {ws : List (List Char)} (hne : ws ≠ [])
    (h : ∀ w ∈ ws, c ∉ w) : pieces (· == c) ([c].intercalate ws) = ws := by
  rw [pieces_eq_splitOnP]
  exact List.splitOn_intercalate c h hne

theorem pieces_eq_singleton {c : Char} {cs : List Char} (h : c ∉ cs) :
    pieces (· == c) cs = [cs] := by
  simpa using pieces_intercalate (List.cons_ne_nil cs []) (by simpa using h)

theorem intercalate_append_of_ne_nil (s : List Char) {us vs : List (List Char)} (hus : us ≠ [])
    (hvs : vs ≠ []) :
    s.intercalate (us ++ vs) = s.intercalate us ++ s ++ s.intercalate vs := by
  induction us with
  | nil => exact absurd rfl hus
  | cons u us ih =>
    cases us with
    | nil => simp [List.intercalate_cons_of_ne_nil hvs]
    | cons u' us =>
      rw [List.intercalate_cons_cons, List.cons_append, List.cons_append,
        List.intercalate_cons_cons, ← List.cons_append, ih (List.cons_ne_nil _ _)]
      simp only [List.append_assoc]

theorem intercalate_pieces (c : Char) (cs : List Char) :
    [c].intercalate (pieces (· == c) cs) = cs := by
  rw [pieces_eq_splitOnP]
  exact List.intercalate_splitOn c

theorem suffix_of_pieces {c : Char} {cs last : List Char} {before : List (List Char)}
    (h : pieces (· == c) cs = before ++ [last]) : last <:+ cs := by
  rw [← intercalate_pieces c cs, h]
  by_cases hbefore : before = []
  · simp [hbefore]
  · rw [intercalate_append_of_ne_nil _ hbefore (List.cons_ne_nil _ _), List.intercalate_singleton]
    exact List.suffix_append _ _

/-! ### The end of a piece -/

theorem mem_of_mem_dropFinal {d c : Char} {cs : List Char} (h : c ∈ dropFinal d cs) : c ∈ cs := by
  rw [dropFinal] at h
  split at h
  · exact (List.dropLast_sublist cs).subset h
  · exact h

/-- A character that is not there cannot be dropped from the end. -/
theorem dropFinal_eq_self {d : Char} {cs : List Char} (h : d ∉ cs) : dropFinal d cs = cs := by
  rw [dropFinal, if_neg]
  exact fun hlast => h (List.mem_of_getLast? hlast)

theorem mem_of_mem_dropFinals {d c : Char} {cs : List Char} (h : c ∈ dropFinals d cs) :
    c ∈ cs := by
  rw [dropFinals, List.mem_reverse] at h
  exact List.mem_reverse.mp ((List.dropWhile_sublist _).mem h)

theorem dropFinals_eq_rdropWhile (c : Char) (cs : List Char) :
    dropFinals c cs = cs.rdropWhile (· == c) := rfl

theorem dropFinals_eq_self {c : Char} {cs : List Char} (h : cs.getLast? ≠ some c) :
    dropFinals c cs = cs := by
  rcases cs.eq_nil_or_concat' with rfl | ⟨cs, d, rfl⟩
  · rfl
  · rw [dropFinals_eq_rdropWhile, List.rdropWhile_concat_neg]
    simpa using h

/-- The last character that is left is not one that is dropped. -/
theorem of_mem_getLast?_rdropWhile {p : Char → Bool} {cs : List Char} :
    ∀ c ∈ (cs.rdropWhile p).getLast?, p c = false := by
  intro c hc
  have hne : cs.rdropWhile p ≠ [] := by
    rintro hnil
    rw [hnil] at hc
    cases hc
  rw [List.getLast?_eq_some_getLast hne, Option.mem_some_iff] at hc
  rw [← hc, ← Bool.not_eq_true]
  exact List.rdropWhile_last_not p cs hne

theorem getLast?_dropFinals_ne (c : Char) (cs : List Char) :
    (dropFinals c cs).getLast? ≠ some c := by
  intro hlast
  simpa using of_mem_getLast?_rdropWhile c hlast

/-- Where all of them are dropped, it does not matter that one was dropped
before. -/
theorem dropFinals_dropFinal (c : Char) (cs : List Char) :
    dropFinals c (dropFinal c cs) = dropFinals c cs := by
  rw [dropFinal]
  split
  · rename_i hlast
    obtain ⟨ds, rfl⟩ := List.getLast?_eq_some_iff.mp hlast
    rw [List.dropLast_concat, dropFinals_eq_rdropWhile, dropFinals_eq_rdropWhile,
      List.rdropWhile_concat_pos (· == c) ds c (beq_self_eq_true c)]
  · rfl

/-! ### Lines -/

/-- **The lines that pieces make**: the last piece is one only when it is not
empty. -/
theorem linesOfPieces_concat (ws : List (List Char)) (w : List Char) :
    linesOfPieces (ws ++ [w]) = ws.map (dropFinal '\r') ++ if w = [] then [] else [w] := by
  induction ws with
  | nil => simp [linesOfPieces]
  | cons v ws ih =>
    obtain ⟨v', vs, hcons⟩ := List.exists_cons_of_ne_nil (List.append_ne_nil_of_right_ne_nil ws
      (List.cons_ne_nil w []))
    rw [List.cons_append, hcons, linesOfPieces, ← hcons, ih, List.map_cons, List.cons_append]
    simp

/-- A line consists of characters of some piece. -/
theorem exists_of_mem_linesOfPieces {ws : List (List Char)} {w : List Char}
    (h : w ∈ linesOfPieces ws) : ∃ v ∈ ws, ∀ c ∈ w, c ∈ v := by
  fun_induction linesOfPieces ws with
  | case1 => cases h
  | case2 => cases h
  | case3 v => exact ⟨v, List.mem_singleton_self v, fun c hc => List.mem_singleton.mp h ▸ hc⟩
  | case4 v vs _ ih =>
    rcases List.mem_cons.mp h with rfl | h
    · exact ⟨v, List.mem_cons_self .., fun c hc => mem_of_mem_dropFinal hc⟩
    · obtain ⟨v', hv', hchars⟩ := ih h
      exact ⟨v', List.mem_cons_of_mem _ hv', hchars⟩

/-- The lines of a text have no line feeds in them. -/
theorem not_mem_of_mem_lines {s l : String} (h : l ∈ lines s) : '\n' ∉ l.toList := by
  obtain ⟨w, hw, rfl⟩ := List.mem_map.mp h
  obtain ⟨v, hv, hchars⟩ := exists_of_mem_linesOfPieces hw
  rw [String.toList_ofList]
  exact fun hmem => not_mem_of_mem_pieces hv (hchars _ hmem)

end SharpSource.Text
