import SharpSource.Proofs.Paths

/-!
# Names found again

A file is written to a path that was joined from a directory and a name, and a
report shows the name again, as the path relative to the directory. In between
both are taken apart and compared by their parts, and the name is cut out of the
text of the path, from where its first part starts to where its last one stops.

So it matters where parts stand. Those of a path below a directory are the parts
of the directory, in their places, and those of the name, behind the text that
was put in front of it (`Path.parts_join`). A plain name starts with a part and
ends with one, so that the text between them is all of it
(`Path.relativeTo?_join`).
-/

namespace SharpSource.Path

open Text (pieces)
open Disk (IsPlainName)

/-! ### Parts of a path and of what is in front -/

theorem partsAfter?_append (bs ps : List Part) : partsAfter? bs (bs ++ ps) = some ps := by
  induction bs with
  | nil => cases ps <;> rfl
  | cons b bs ih => rw [List.cons_append, partsAfter?, if_pos rfl, ih]

/-- Each piece is passed over with the slash behind it. -/
theorem partsFrom_append (start : Nat) (first : Bool) (ws ws' : List (List Char)) :
    partsFrom start first (ws ++ ws') = partsFrom start first ws ++
      partsFrom (start + (ws.flatMap (· ++ ['/'])).length) (first && ws.isEmpty) ws' := by
  induction ws generalizing start first with
  | nil => simp [partsFrom]
  | cons w ws ih =>
    rw [List.cons_append, partsFrom, partsFrom, ih]
    have hplace : start + w.length + 1 + (ws.flatMap (· ++ ['/'])).length =
        start + ((w :: ws).flatMap (· ++ ['/'])).length := by
      rw [List.flatMap_cons, List.length_append, List.length_append, List.length_singleton]
      omega
    rw [hplace, List.isEmpty_cons, Bool.and_false, Bool.false_and]
    split <;> simp

/-- The pieces of a text, each with a divider behind it, are the text with
one. -/
theorem flatMap_pieces (c : Char) (cs : List Char) :
    (pieces (· == c) cs).flatMap (· ++ [c]) = cs ++ [c] := by
  induction cs with
  | nil => rfl
  | cons d cs ih =>
    rw [pieces]
    obtain ⟨w, ws, hpieces⟩ := List.exists_cons_of_ne_nil (Text.pieces_ne_nil (· == c) cs)
    rw [hpieces] at ih ⊢
    by_cases h : d = c
    · subst h
      rw [if_pos (beq_self_eq_true d), List.flatMap_cons, ih]
      rfl
    · rw [if_neg (by simpa using h), List.cons_append, ← ih]
      rfl

/-- Behind a slash the parts of the rest follow. -/
theorem parts_append_slash (cs tail : List Char) :
    parts (String.ofList (cs ++ '/' :: tail)) =
      parts (String.ofList (cs ++ ['/'])) ++
        partsFrom (cs.length + 1) false (pieces (· == '/') tail) := by
  have hsplit : ∀ tail, pieces (· == '/') (cs ++ '/' :: tail) =
      pieces (· == '/') cs ++ pieces (· == '/') tail := fun tail =>
    Text.pieces_append_cons (by rfl) cs tail
  have hplaces : ((pieces (· == '/') cs).flatMap (· ++ ['/'])).length = cs.length + 1 := by
    rw [flatMap_pieces, List.length_append, List.length_singleton]
  have hhead : isAbsolute (String.ofList (cs ++ '/' :: tail)) =
      isAbsolute (String.ofList (cs ++ ['/'])) := by
    cases cs <;> simp [isAbsolute]
  rw [parts, parts, hhead, String.toList_ofList, String.toList_ofList, hsplit, hsplit]
  obtain ⟨w, ws, hpieces⟩ := List.exists_cons_of_ne_nil (Text.pieces_ne_nil (· == '/') cs)
  rw [hpieces] at hplaces ⊢
  have hnone : ∀ start first, partsFrom start first (pieces (· == '/') []) = [] := fun _ _ => rfl
  by_cases habsolute : isAbsolute (String.ofList (cs ++ ['/'])) = true
  · -- Nothing is in front of the first slash, which is the root.
    have hw : w = [] := by
      cases cs with
      | nil => simpa [pieces, eq_comm] using (List.cons.inj hpieces).1
      | cons c cs =>
        have hc : c = '/' := by simpa [isAbsolute] using habsolute
        subst hc
        exact (List.cons.inj hpieces).1.symm
    subst hw
    rw [if_pos habsolute, if_pos habsolute]
    rw [List.flatMap_cons, List.nil_append, List.singleton_append, List.length_cons,
      Nat.add_comm] at hplaces
    simp only [List.cons_append, List.drop_succ_cons, List.drop_zero]
    rw [partsFrom_append, partsFrom_append, hnone, List.append_nil, hplaces, Bool.false_and]
  · rw [if_neg habsolute, if_neg habsolute, partsFrom_append, partsFrom_append, hnone, hplaces,
      List.append_nil, List.isEmpty_cons, Bool.and_false, Nat.zero_add]

/-- A slash at the end says nothing, except for the root. -/
theorem parts_concat_slash {cs : List Char} (hne : cs ≠ []) :
    parts (String.ofList (cs ++ ['/'])) = parts (String.ofList cs) := by
  obtain ⟨c, cs, rfl⟩ := List.exists_cons_of_ne_nil hne
  have hsplit : pieces (· == '/') (c :: cs ++ ['/']) = pieces (· == '/') (c :: cs) ++ [[]] :=
    Text.pieces_append_cons (by rfl) _ _
  obtain ⟨w, ws, hpieces⟩ := List.exists_cons_of_ne_nil (Text.pieces_ne_nil (· == '/') (c :: cs))
  have hempty : ∀ start first us, partsFrom start first (us ++ [[]]) = partsFrom start first us :=
    fun start first us => (partsFrom_append start first us [[]]).trans (List.append_nil _)
  have hhead :
      isAbsolute (String.ofList (c :: cs ++ ['/'])) = isAbsolute (String.ofList (c :: cs)) := by
    simp [isAbsolute]
  rw [parts, parts, hhead, String.toList_ofList, String.toList_ofList, hsplit, hempty, hpieces]
  simp only [List.cons_append, List.drop_succ_cons, List.drop_zero, hempty]

/-! ### Names below a directory -/

section Plain

variable {name : String} (h : IsPlainName name)
include h

/-- **The parts of a path below a directory** are those of the directory and
those of the name, which stand behind the text in front of it. -/
theorem parts_join (dir : String) : ∃ front first, (join dir name).toList = front ++ name.toList ∧
    parts (join dir name) =
      parts dir ++ partsFrom front.length first (pieces (· == '/') name.toList) := by
  have hbehind : ∀ cs, parts (String.ofList (cs ++ '/' :: name.toList)) =
      parts (String.ofList (cs ++ ['/'])) ++
        partsFrom (cs ++ ['/']).length false (pieces (· == '/') name.toList) := by
    intro cs
    rw [parts_append_slash, List.length_append, List.length_singleton]
  rw [join, h.relative]
  by_cases hempty : dir = ""
  · subst hempty
    refine ⟨[], true, by simp, ?_⟩
    have hnone : parts "" = [] := by decide
    rw [if_pos (by simp), hnone, parts, h.relative]
    simp
  rw [if_neg (by simpa using hempty)]
  by_cases hslash : dir.toList.getLast? = some '/'
  · obtain ⟨cs, hcs⟩ := List.getLast?_eq_some_iff.mp hslash
    have hdir : dir = String.ofList (cs ++ ['/']) := by rw [← hcs, String.ofList_toList]
    have hpath : dir ++ name = String.ofList (cs ++ '/' :: name.toList) := by
      rw [← String.toList_inj]
      simp [hcs]
    rw [if_pos hslash, hpath]
    exact ⟨cs ++ ['/'], false, by simp, by rw [hbehind, hdir]⟩
  · have hpath : dir ++ "/" ++ name = String.ofList (dir.toList ++ '/' :: name.toList) := by
      rw [← String.toList_inj]
      simp
    rw [if_neg hslash, hpath]
    refine ⟨dir.toList ++ ['/'], false, by simp, ?_⟩
    rw [hbehind, parts_concat_slash (by simpa using hempty), String.ofList_toList]

/-- A plain name starts with a part. -/
theorem head?_partsFrom (start : Nat) (first : Bool) :
    ∃ part, (partsFrom start first (pieces (· == '/') name.toList)).head? = some part ∧
      part.start = start := by
  obtain ⟨w, ws, hpieces⟩ := List.exists_cons_of_ne_nil (Text.pieces_ne_nil (· == '/') name.toList)
  -- The name does not start with a slash, so that its first piece is one of its steps.
  have hw : w ≠ [] := by
    rintro rfl
    obtain ⟨c, cs, hcs⟩ := List.exists_cons_of_ne_nil h.toList_ne_nil
    have hc : c ≠ '/' := fun hc => by
      have hrelative := h.relative
      rw [isAbsolute, hcs, hc] at hrelative
      cases hrelative
    rw [hcs, pieces, if_neg (by simpa using hc)] at hpieces
    obtain ⟨v, vs, hrest⟩ := List.exists_cons_of_ne_nil (Text.pieces_ne_nil (· == '/') cs)
    rw [hrest] at hpieces
    cases (List.cons.inj hpieces).1
  have hdot : w ≠ ['.'] := by
    rintro rfl
    have hmem : "." ∈ Disk.steps name := by
      rw [Disk.steps_eq_named h.getLast?_ne_slash, Disk.named, hpieces]
      exact List.mem_cons_self ..
    exact (h.plain "." hmem).1 rfl
  rw [hpieces, partsFrom, if_neg (by simp [hw, hdot])]
  exact ⟨_, rfl, rfl⟩

/-- A plain name ends with a part. -/
theorem getLast?_partsFrom (start : Nat) (first : Bool) :
    ∃ part, (partsFrom start first (pieces (· == '/') name.toList)).getLast? = some part ∧
      part.stop = start + name.toList.length := by
  have hjoin : join "" name = name := by simp [join]
  have hbelow : Disk.endsInName (join "" name) = true := Disk.endsInName_join h
  have hends : Disk.endsInName name = true := hjoin ▸ hbelow
  obtain ⟨ws, w, hpieces, hw⟩ := Disk.exists_pieces_of_endsInName hends
  rw [hpieces]
  rcases Disk.last_partsFrom start first (ws ++ [w]) with
    ⟨-, hidle⟩ | ⟨part, us, vs, hlast, hsplit, -, hidle, hstop⟩
  · exact absurd (hidle w (by simp)) hw
  · -- What follows the last part is idle, and the last piece is not.
    have hvs : vs = [] := by
      by_contra hne
      have hsame : vs.getLast? = some w := by
        rw [← List.getLast?_append_of_ne_nil us hne, ← hsplit, List.getLast?_concat]
      exact hw (hidle w (List.mem_of_getLast? hsame))
    refine ⟨part, hlast, ?_⟩
    rw [hstop, Disk.toList_eq_intercalate hpieces, hsplit, hvs, List.append_nil]

/-- **A name is found again**: relative to its directory, a path that was joined
from both is the name. -/
theorem relativeTo?_join (dir : String) : relativeTo? dir (join dir name) = some name := by
  obtain ⟨front, first, htext, hparts⟩ := parts_join h dir
  obtain ⟨head, hhead, hstart⟩ := head?_partsFrom h front.length first
  obtain ⟨last, hlast, hstop⟩ := getLast?_partsFrom h front.length first
  rw [relativeTo?, hparts, partsAfter?_append, Option.map_some, hhead, hlast]
  refine congrArg some ?_
  show String.ofList (((join dir name).toList.take last.stop).drop head.start) = name
  rw [hstart, hstop, htext, ← List.length_append, List.take_length, List.drop_left,
    String.ofList_toList]

end Plain

end SharpSource.Path
