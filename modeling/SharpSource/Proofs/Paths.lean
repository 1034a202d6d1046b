import SharpSource.Disk.Basic
import SharpSource.Proofs.Splitting

/-!
# Paths and the steps they take

A path is a text to the one and a walk to the other. Files are named by joining
texts, and the directory of a file is found by cutting a text off behind its
last part but one; a disk follows the steps between the slashes. A dot, a
doubled slash and a slash at the end are there in the texts and lead nowhere.

So two paths are compared by their **moves**, the steps without the dots. A path
below a directory has the moves of the directory and then those of the name
(`Disk.steps_join`), and the parent of a path that ends in a name has all of its
moves but the last (`Disk.exists_parent`).
-/

namespace SharpSource

namespace Disk

/-! ### Moves -/

/-- The names between the slashes of a path. -/
def named (cs : List Char) : List String :=
  ((Text.pieces (· == '/') cs).filter (!·.isEmpty)).map String.ofList

theorem named_append_slash (cs cs' : List Char) :
    named (cs ++ '/' :: cs') = named cs ++ named cs' := by
  rw [named, Text.pieces_append_cons rfl, List.filter_append, List.map_append]
  rfl

/-- **The moves of a path**: its steps without those that stay where they
are. -/
def moves (path : String) : List String :=
  (steps path).filter (· ≠ ".")

theorem moves_eq_named (path : String) : moves path = (named path.toList).filter (· ≠ ".") := by
  rw [moves, steps]
  split
  · rw [List.filter_append]
    simp [named]
  · rfl

theorem steps_eq_named {path : String} (h : path.toList.getLast? ≠ some '/') :
    steps path = named path.toList := by
  rw [steps, if_neg h]
  rfl

theorem getLast?_ne_slash {path : String} (h : endsInName path = true) :
    path.toList.getLast? ≠ some '/' := by
  intro hlast
  rw [endsInName, steps, if_pos hlast, List.getLast?_concat] at h
  simp at h

/-! ### Names below a directory -/

/-- **A plain name** of a file: a path from where it is seen, with names in it
and no other steps. -/
structure IsPlainName (name : String) : Prop where
  relative : Path.isAbsolute name = false
  named : steps name ≠ []
  plain : ∀ s ∈ steps name, s ≠ "." ∧ s ≠ ".."

instance (name : String) : Decidable (IsPlainName name) :=
  decidable_of_iff (Path.isAbsolute name = false ∧ steps name ≠ [] ∧
    ∀ s ∈ steps name, s ≠ "." ∧ s ≠ "..") ⟨fun ⟨h₁, h₂, h₃⟩ => ⟨h₁, h₂, h₃⟩,
      fun ⟨h₁, h₂, h₃⟩ => ⟨h₁, h₂, h₃⟩⟩

namespace IsPlainName

variable {name : String} (h : IsPlainName name)
include h

theorem moves_eq : moves name = steps name :=
  List.filter_eq_self.mpr fun s hs => by simpa using (h.plain s hs).1

theorem toList_ne_nil : name.toList ≠ [] := by
  intro hempty
  rw [String.toList_eq_nil_iff] at hempty
  exact h.named (by rw [hempty]; decide)

theorem getLast?_ne_slash : name.toList.getLast? ≠ some '/' := by
  intro hlast
  have hdot : "." ∈ steps name := by
    rw [steps, if_pos hlast]
    exact List.mem_append_right _ (List.mem_singleton_self _)
  exact (h.plain "." hdot).1 rfl

end IsPlainName

/-- **The steps of a path below a directory** are those of the directory, up to
dots, and those of the name. -/
theorem steps_join (dir : String) {name : String} (h : IsPlainName name) :
    ∃ before, steps (Path.join dir name) = before ++ steps name ∧
      before.filter (· ≠ ".") = moves dir := by
  have hbehind : ∀ cs,
      steps (String.ofList (cs ++ '/' :: name.toList)) = named cs ++ steps name := by
    intro cs
    have hlast : (cs ++ '/' :: name.toList).getLast? = name.toList.getLast? := by
      rw [List.append_cons, List.getLast?_append_of_ne_nil _ h.toList_ne_nil]
    rw [steps_eq_named h.getLast?_ne_slash, steps_eq_named, String.toList_ofList,
      named_append_slash]
    rw [String.toList_ofList, hlast]
    exact h.getLast?_ne_slash
  rw [Path.join, h.relative, moves_eq_named]
  by_cases hempty : dir = ""
  · subst hempty
    exact ⟨[], by simp, by decide⟩
  rw [if_neg (by simpa using hempty)]
  refine ⟨_, ?_, rfl⟩
  by_cases hslash : dir.toList.getLast? = some '/'
  · rw [if_pos hslash]
    obtain ⟨cs, hcs⟩ := List.getLast?_eq_some_iff.mp hslash
    have hdir : named dir.toList = named cs := by
      rw [hcs, named_append_slash]
      exact List.append_nil _
    have hpath : dir ++ name = String.ofList (cs ++ '/' :: name.toList) := by
      rw [← String.toList_inj, String.toList_append, String.toList_ofList, hcs, ← List.append_cons]
    rw [hdir, hpath, hbehind]
  · rw [if_neg hslash]
    have hpath : dir ++ "/" ++ name = String.ofList (dir.toList ++ '/' :: name.toList) := by
      rw [← String.toList_inj]
      simp
    rw [hpath, hbehind]

section Join

variable {dir name : String} (h : IsPlainName name)
include h

theorem moves_join : moves (Path.join dir name) = moves dir ++ steps name := by
  obtain ⟨before, hsteps, hbefore⟩ := steps_join dir h
  rw [moves, hsteps, List.filter_append, hbefore]
  exact congrArg _ h.moves_eq

theorem endsInName_join : endsInName (Path.join dir name) = true := by
  obtain ⟨before, hsteps, -⟩ := steps_join dir h
  have hlast := List.getLast_mem h.named
  rw [endsInName, hsteps, List.getLast?_append_of_ne_nil _ h.named,
    List.getLast?_eq_getLast_of_ne_nil h.named]
  simpa using h.plain _ hlast

/-- A path below a directory starts where the directory does. -/
theorem origin_join (d : Disk) : d.origin (Path.join dir name) = d.origin dir := by
  have habsolute : Path.isAbsolute (Path.join dir name) = Path.isAbsolute dir := by
    rw [Path.join, h.relative]
    by_cases hempty : dir = ""
    · subst hempty
      rw [if_pos (by simp), h.relative]
      rfl
    · rw [if_neg (by simpa using hempty)]
      obtain ⟨c, cs, hcs⟩ := List.exists_cons_of_ne_nil (l := dir.toList) (by simpa using hempty)
      rw [Path.isAbsolute, Path.isAbsolute]
      split <;> simp [hcs]
  rw [origin, origin, habsolute]

end Join

/-! ### Parents -/

/-- A piece of a path that leads nowhere. -/
def Idle (w : List Char) : Prop :=
  w = [] ∨ w = ['.']

theorem filter_named_eq {us vs : List (List Char)} (h : ∀ v ∈ vs, Idle v) :
    (((us ++ vs).filter (!·.isEmpty)).map String.ofList).filter (· ≠ ".") =
      ((us.filter (!·.isEmpty)).map String.ofList).filter (· ≠ ".") := by
  have hidle : ((vs.filter (!·.isEmpty)).map String.ofList).filter (· ≠ ".") = [] := by
    rw [List.filter_eq_nil_iff]
    intro s hs
    obtain ⟨v, hv, rfl⟩ := List.mem_map.mp hs
    rw [List.mem_filter] at hv
    rcases h v hv.1 with rfl | rfl
    · simp at hv
    · decide
  rw [List.filter_append, List.map_append, List.filter_append, hidle, List.append_nil]

/-- **Where the last part of some pieces stops**: behind a number of pieces
after which only idle ones follow. Without any part all pieces are idle. -/
theorem last_partsFrom (start : Nat) (first : Bool) (ws : List (List Char)) :
    (Path.partsFrom start first ws = [] ∧ ∀ w ∈ ws, Idle w) ∨
      ∃ part us vs, (Path.partsFrom start first ws).getLast? = some part ∧ ws = us ++ vs ∧ us ≠ [] ∧
        (∀ v ∈ vs, Idle v) ∧ part.stop = start + (['/'].intercalate us).length := by
  induction ws generalizing start first with
  | nil => exact .inl ⟨rfl, by simp⟩
  | cons w ws ih =>
    rw [Path.partsFrom]
    rcases ih (start + w.length + 1) false with
      ⟨hnone, hidle⟩ | ⟨part, us, vs, hlast, rfl, hne, hidle, hstop⟩
    · rw [hnone]
      by_cases hpart : (w.isEmpty || (w == ['.'] && !first)) = true
      · rw [if_pos hpart]
        simp only [Bool.or_eq_true, List.isEmpty_iff, Bool.and_eq_true, beq_iff_eq] at hpart
        exact .inl ⟨rfl, List.forall_mem_cons.mpr ⟨hpart.imp_right And.left, hidle⟩⟩
      · rw [if_neg hpart]
        exact .inr ⟨_, [w], ws, rfl, rfl, List.cons_ne_nil _ _, hidle, by simp⟩
    · -- The piece in front is only passed over, with the slash behind it.
      have hlength : part.stop = start + (['/'].intercalate (w :: us)).length := by
        rw [List.intercalate_cons_of_ne_nil hne, hstop]
        simp
        omega
      refine .inr ⟨part, w :: us, vs, ?_, rfl, List.cons_ne_nil _ _, hidle, hlength⟩
      split
      · exact hlast
      · rw [List.getLast?_cons, hlast]
        rfl

/-- The parts of pieces that end in one which is a part. -/
theorem partsFrom_concat (start : Nat) (first : Bool) (ws : List (List Char)) {w : List Char}
    (h : ¬Idle w) : ∃ part, part.text = String.ofList w ∧
      Path.partsFrom start first (ws ++ [w]) = Path.partsFrom start first ws ++ [part] := by
  induction ws generalizing start first with
  | nil =>
    rw [Idle, not_or] at h
    refine ⟨⟨String.ofList w, start, start + w.length⟩, rfl, ?_⟩
    simp [Path.partsFrom, h.1, h.2]
  | cons v ws ih =>
    obtain ⟨part, htext, hparts⟩ := ih (start + v.length + 1) false
    refine ⟨part, htext, ?_⟩
    rw [List.cons_append, Path.partsFrom, Path.partsFrom, hparts]
    split <;> rfl

theorem parent?_eq {path : String} {prior : List Path.Part} {part : Path.Part}
    (hparts : Path.parts path = prior ++ [part]) (htext : part.text ≠ "/") :
    Path.parent? path = some (match prior.getLast? with
      | none => ""
      | some q => String.ofList (path.toList.take q.stop)) := by
  rw [Path.parent?, hparts, List.reverse_append, ← List.head?_reverse]
  cases prior.reverse with
  | nil => exact if_neg htext
  | cons q qs => rfl

/-- The last piece of a path that ends in a name. -/
theorem exists_pieces_of_endsInName {path : String} (h : endsInName path = true) :
    ∃ ws w, Text.pieces (· == '/') path.toList = ws ++ [w] ∧ ¬Idle w := by
  obtain ⟨ws, w, hpieces⟩ := ((Text.pieces (· == '/') path.toList).eq_nil_or_concat).resolve_left
    (Text.pieces_ne_nil _ _)
  rw [List.concat_eq_append] at hpieces
  have htext : path.toList = ['/'].intercalate (ws ++ [w]) := by
    rw [← hpieces, Text.intercalate_pieces]
  refine ⟨ws, w, hpieces, ?_⟩
  rintro (rfl | rfl)
  · -- Behind a last slash, or in the empty path, there is no name.
    by_cases hws : ws = []
    · rw [hws] at htext
      have hempty : path = "" := by simpa using htext
      rw [hempty] at h
      exact absurd h (by decide)
    · refine getLast?_ne_slash h ?_
      rw [htext, Text.intercalate_append_of_ne_nil _ hws (List.cons_ne_nil _ _)]
      simp
  · have hsteps : steps path = (ws.filter (!·.isEmpty)).map String.ofList ++ ["."] := by
      rw [steps_eq_named (getLast?_ne_slash h), named, hpieces, List.filter_append, List.map_append]
      rfl
    rw [endsInName, hsteps, List.getLast?_concat] at h
    simp at h

section Pieces

variable {path : String} {ws : List (List Char)} {w : List Char}
  (hpieces : Text.pieces (· == '/') path.toList = ws ++ [w])
include hpieces

theorem toList_eq_intercalate : path.toList = ['/'].intercalate (ws ++ [w]) := by
  rw [← hpieces, Text.intercalate_pieces]

theorem slash_not_mem {v : List Char} (hv : v ∈ ws ++ [w]) : '/' ∉ v :=
  Text.not_mem_of_mem_pieces (hpieces ▸ hv)

variable (hw : ¬Idle w)
include hw

/-- All moves of a path but the last are made for the pieces in front of its
last one. -/
theorem dropLast_moves : (moves path).dropLast =
    ((ws.filter (!·.isEmpty)).map String.ofList).filter (· ≠ ".") := by
  have hname : ([w].filter (!·.isEmpty)).map String.ofList = [String.ofList w] := by
    rw [Idle, not_or] at hw
    simp [hw.1]
  have hdot : String.ofList w ≠ "." := fun hdot => hw (.inr (by
    rw [← String.toList_ofList (l := w), hdot]
    rfl))
  rw [moves_eq_named, named, hpieces, List.filter_append, List.map_append, hname,
    List.filter_append, List.filter_singleton, decide_eq_true hdot]
  exact List.dropLast_concat

theorem dropLast_moves_of_idle (h : ∀ v ∈ ws, Idle v) : (moves path).dropLast = [] :=
  (dropLast_moves hpieces hw).trans (@filter_named_eq [] _ h)

/-- A path that is cut off behind pieces after which only idle ones come loses
its last move. -/
theorem moves_take {us vs : List (List Char)} (hws : ws = us ++ vs) (hne : us ≠ [])
    (hidle : ∀ v ∈ vs, Idle v) :
    moves (String.ofList (path.toList.take (['/'].intercalate us).length)) =
      (moves path).dropLast := by
  have htake : path.toList.take (['/'].intercalate us).length = ['/'].intercalate us := by
    rw [toList_eq_intercalate hpieces, hws, List.append_assoc,
      Text.intercalate_append_of_ne_nil _ hne (by simp), List.append_assoc]
    exact List.take_left
  have hslash : ∀ u ∈ us, '/' ∉ u := fun u hu => slash_not_mem hpieces (by simp [hws, hu])
  rw [htake, moves_eq_named, String.toList_ofList, named, Text.pieces_intercalate hne hslash,
    dropLast_moves hpieces hw, hws, filter_named_eq hidle]

end Pieces

/-- **How a path is cut**: its parts end in one for the last piece, and the part
in front of that, if there is one, stops where the path has made all of its
moves but the last. -/
def CutBehind (path : String) (w : List Char) : Prop :=
  ∃ prior part, Path.parts path = prior ++ [part] ∧ part.text = String.ofList w ∧
    (prior = [] ∧ (moves path).dropLast = [] ∨ ∃ q, prior.getLast? = some q ∧
      moves (String.ofList (path.toList.take q.stop)) = (moves path).dropLast)

section Cut

variable {path : String} {ws : List (List Char)} {w : List Char}
  (hpieces : Text.pieces (· == '/') path.toList = ws ++ [w]) (hw : ¬Idle w)
include hpieces hw

theorem cutBehind_of_relative (h : Path.isAbsolute path = false) : CutBehind path w := by
  obtain ⟨part, htext, hparts⟩ := partsFrom_concat 0 true ws hw
  refine ⟨Path.partsFrom 0 true ws, part, ?_, htext, ?_⟩
  · rw [Path.parts, if_neg (by simp [h]), hpieces, hparts]
  rcases last_partsFrom 0 true ws with ⟨hempty, hidle⟩ | ⟨q, us, vs, hlast, hws, hne, hidle, hstop⟩
  · exact .inl ⟨hempty, dropLast_moves_of_idle hpieces hw hidle⟩
  · refine .inr ⟨q, hlast, ?_⟩
    rw [hstop, Nat.zero_add, moves_take hpieces hw hws hne hidle]

/-- The root is a part of its own, in front of the parts behind the first
slash. -/
theorem cutBehind_of_absolute (h : Path.isAbsolute path = true) : CutBehind path w := by
  obtain ⟨cs, hcs⟩ : ∃ cs, path.toList = '/' :: cs := by
    rw [Path.isAbsolute, beq_iff_eq] at h
    exact List.head?_eq_some_iff.mp h
  obtain ⟨ws, rfl⟩ : ∃ ws', ws = [] :: ws' := by
    rw [hcs, Text.pieces, if_pos (beq_self_eq_true '/')] at hpieces
    cases ws with
    | nil => exact absurd (.inl (List.cons.inj hpieces).1.symm) hw
    | cons v ws' => exact ⟨ws', by rw [(List.cons.inj hpieces).1]⟩
  obtain ⟨part, htext, hparts⟩ := partsFrom_concat 1 false ws hw
  refine ⟨⟨"/", 0, 1⟩ :: Path.partsFrom 1 false ws, part, ?_, htext, .inr ?_⟩
  · rw [Path.parts, if_pos h, hpieces]
    exact congrArg _ hparts
  rw [List.getLast?_cons]
  rcases last_partsFrom 1 false ws with ⟨hempty, hidle⟩ | ⟨q, us, vs, hlast, rfl, hne, hidle, hstop⟩
  · rw [hempty]
    refine ⟨_, rfl, ?_⟩
    rw [dropLast_moves_of_idle hpieces hw (List.forall_mem_cons.mpr ⟨.inl rfl, hidle⟩), hcs]
    show moves (String.ofList ['/']) = []
    decide
  · rw [hlast]
    refine ⟨q, rfl, ?_⟩
    have hlength : q.stop = (['/'].intercalate ([] :: us)).length := by
      rw [hstop, List.intercalate_cons_of_ne_nil hne]
      simp
      omega
    rw [hlength]
    exact moves_take hpieces hw rfl (List.cons_ne_nil _ _) hidle

end Cut

/-- **The parent of a path** that ends in a name is a part of its text, and has
all moves of it but the last. -/
theorem exists_parent {path : String} (h : endsInName path = true) :
    ∃ parent, Path.parent? path = some parent ∧ parent.toList <+: path.toList ∧
      moves parent = (moves path).dropLast := by
  obtain ⟨ws, w, hpieces, hw⟩ := exists_pieces_of_endsInName h
  have hcut : CutBehind path w := by
    cases habsolute : Path.isAbsolute path with
    | true => exact cutBehind_of_absolute hpieces hw habsolute
    | false => exact cutBehind_of_relative hpieces hw habsolute
  obtain ⟨prior, part, hparts, htext, hprior⟩ := hcut
  -- The last piece is no root, since it has no slash in it.
  have hroot : part.text ≠ "/" := by
    intro hroot
    refine slash_not_mem hpieces (List.mem_append_right ws (List.mem_singleton_self w)) ?_
    rw [← String.toList_ofList (l := w), ← htext, hroot]
    decide
  rw [parent?_eq hparts hroot]
  rcases hprior with ⟨rfl, hmoves⟩ | ⟨q, hlast, hmoves⟩
  · refine ⟨"", rfl, List.nil_prefix, ?_⟩
    rw [hmoves]
    decide
  · rw [hlast]
    refine ⟨_, rfl, ?_, hmoves⟩
    rw [String.toList_ofList]
    exact List.take_prefix q.stop _

end Disk

end SharpSource
