import SharpSource.Proofs.Separation
import SharpSource.Proofs.Splitting

/-!
# Texts one level deeper

What is written at some level is written at the next one as well, with one more
unit of indentation in front of each line (`Layout.Indented`). The relation is
one of whole lines and goes through everything that puts such texts behind each
other: lines, blocks, blocks in blocks, and bodies with empty lines between
them.

Two things hold it up. An empty line has no margin at any level, which is why
blank lines need only be blank in both texts. And level zero has its own rules:
a line keeps its carriage returns there, and the last brace has no line feed
behind it (`Layout.trail`).
-/

namespace SharpSource

namespace Layout

open Writer (margin lineText)
open Bodies (emptyLines separated)

/-- Lines, each with a line feed behind it. -/
def ended (ls : List String) : String :=
  String.join (ls.map (· ++ "\n"))

theorem ended_append (ls ls' : List String) : ended (ls ++ ls') = ended ls ++ ended ls' := by
  rw [ended, List.map_append, String.join_append]
  rfl

theorem ended_eq_intercalate {ls : List String} (h : ls ≠ []) :
    ended ls = "\n".intercalate ls ++ "\n" := by
  induction ls with
  | nil => exact absurd rfl h
  | cons l ls ih =>
    have hcons : ended (l :: ls) = l ++ "\n" ++ ended ls := ended_append [l] ls
    cases ls with
    | nil => rfl
    | cons l' ls =>
      rw [hcons, ih (List.cons_ne_nil _ _), String.intercalate_cons_cons]
      simp only [String.append_assoc]

/-- Splitting a text at its line feeds gives the lines that it is made of. -/
theorem split_eq_of_ended {ls : List String} (hne : ls ≠ []) (h : ∀ l ∈ ls, '\n' ∉ l.toList)
    {s : String} (hs : s ++ "\n" = ended ls) : Text.split '\n' s = ls := by
  rw [ended_eq_intercalate hne, String.append_left_inj] at hs
  have hlines : ∀ w ∈ ls.map String.toList, '\n' ∉ w := by
    intro w hw
    obtain ⟨l, hl, rfl⟩ := List.mem_map.mp hw
    exact h l hl
  have hpieces := Text.pieces_intercalate (by simpa using hne) hlines
  rw [Text.split, hs, String.toList_intercalate]
  change (Text.pieces (· == '\n') (['\n'].intercalate (ls.map String.toList))).map
    String.ofList = ls
  rw [hpieces, List.map_map]
  simp

theorem ended_split (s : String) : ended (Text.split '\n' s) = s ++ "\n" := by
  have hne : Text.split '\n' s ≠ [] := by
    rw [Text.split, Ne, List.map_eq_nil_iff]
    exact Text.pieces_ne_nil _ _
  rw [ended_eq_intercalate hne, String.append_left_inj, ← String.toList_inj,
    String.toList_intercalate, Text.split, List.map_map]
  simpa [Function.comp_def] using Text.intercalate_pieces '\n' s.toList

/-! ### The relation -/

/-- **A line one level deeper** has one more unit of indentation in front; of
blank lines nothing is asked but that both are blank. -/
def Deeper (unit line line' : String) : Prop :=
  line' = unit ++ line ∨ (Text.isBlankText line = true ∧ Text.isBlankText line' = true)

/-- **A text one level deeper**: two texts of whole lines, each line of the
second one level deeper than that of the first. -/
def Indented (unit s t : String) : Prop :=
  ∃ ls ls', s = ended ls ∧ t = ended ls' ∧ (∀ l ∈ ls ++ ls', '\n' ∉ l.toList) ∧
    List.Forall₂ (Deeper unit) ls ls'

namespace Indented

variable {unit s s' t t' : String}

theorem empty : Indented unit "" "" :=
  ⟨[], [], rfl, rfl, by simp, .nil⟩

theorem append (h : Indented unit s t) (h' : Indented unit s' t') :
    Indented unit (s ++ s') (t ++ t') := by
  obtain ⟨ls, ms, rfl, rfl, hls, hdeeper⟩ := h
  obtain ⟨ls', ms', rfl, rfl, hls', hdeeper'⟩ := h'
  refine ⟨ls ++ ls', ms ++ ms', (ended_append _ _).symm, (ended_append _ _).symm, ?_,
    List.rel_append hdeeper hdeeper'⟩
  intro l hl
  simp only [List.mem_append] at hl hls hls'
  rcases hl with (hl | hl) | (hl | hl)
  · exact hls l (Or.inl hl)
  · exact hls' l (Or.inl hl)
  · exact hls l (Or.inr hl)
  · exact hls' l (Or.inr hl)

/-- One line with the unit in front. -/
theorem line {l : String} (hunit : '\n' ∉ unit.toList) (hl : '\n' ∉ l.toList) :
    Indented unit (l ++ "\n") (unit ++ l ++ "\n") := by
  refine ⟨[l], [unit ++ l], rfl, rfl, ?_, .cons (Or.inl rfl) .nil⟩
  simp [hunit, hl]

theorem emptyLine : Indented unit "\n" "\n" :=
  ⟨[""], [""], rfl, rfl, by simp, .cons (Or.inr ⟨rfl, rfl⟩) .nil⟩

theorem join {ss ts : List String} (h : List.Forall₂ (Indented unit) ss ts) :
    Indented unit (String.join ss) (String.join ts) := by
  induction h with
  | nil => exact empty
  | cons hst _ ih =>
    rw [String.join_cons, String.join_cons]
    exact hst.append ih

/-- Texts that are made one by one from the same things. -/
theorem join_map {α : Type} {f g : α → String} {l : List α}
    (h : ∀ a ∈ l, Indented unit (f a) (g a)) :
    Indented unit (String.join (l.map f)) (String.join (l.map g)) := by
  refine join ?_
  rw [List.forall₂_map_left_iff, List.forall₂_map_right_iff, List.forall₂_same]
  exact h

theorem emptyLines (n : Nat) : Indented unit (emptyLines n) (emptyLines n) := by
  induction n with
  | zero => exact empty
  | succ n ih =>
    have hcons : Bodies.emptyLines (n + 1) = "\n" ++ Bodies.emptyLines n := by
      rw [Bodies.emptyLines, List.replicate_succ, String.ofList_cons]
      rfl
    rw [hcons]
    exact emptyLine.append ih

/-- Of two such texts both are empty or none is. -/
theorem eq_empty_iff (h : Indented unit s t) : s = "" ↔ t = "" := by
  have hended : ∀ ls, ended ls = "" ↔ ls = [] := fun ls => by
    constructor
    · intro hempty
      by_contra hne
      rw [ended_eq_intercalate hne, String.append_eq_empty_iff] at hempty
      exact absurd hempty.2 (by decide)
    · rintro rfl
      rfl
  obtain ⟨ls, ls', rfl, rfl, -, hdeeper⟩ := h
  rw [hended, hended, ← List.length_eq_zero_iff, ← List.length_eq_zero_iff, hdeeper.length_eq]

theorem intercalate (hsep : Indented unit s t) {ss ts : List String}
    (h : List.Forall₂ (Indented unit) ss ts) :
    Indented unit (s.intercalate ss) (t.intercalate ts) := by
  induction h with
  | nil => exact empty
  | cons hst hrest ih =>
    cases hrest with
    | nil => exact hst
    | cons hst' hrest' =>
      rw [String.intercalate_cons_cons, String.intercalate_cons_cons]
      exact (hst.append hsep).append ih

/-- **Bodies one level deeper** are separated by as many empty lines. -/
theorem separated (n : Nat) {ss ts : List String} (h : List.Forall₂ (Indented unit) ss ts) :
    Indented unit (separated n ss) (separated n ts) := by
  refine (emptyLines n).intercalate (List.rel_filter ?_ h)
  intro s t hst
  change (s != "") = true ↔ (t != "") = true
  rw [bne_iff_ne, bne_iff_ne, Ne, Ne, hst.eq_empty_iff]

/-- **The lines of two such texts**, the first of them without its last line
feed. -/
theorem split (h : Indented unit (s ++ "\n") t) : ∃ u, t = u ++ "\n" ∧
    List.Forall₂ (Deeper unit) (Text.split '\n' s) (Text.split '\n' u) := by
  obtain ⟨ls, ls', hs, ht, hlines, hdeeper⟩ := h
  have hne : ls ≠ [] := by
    rintro rfl
    have hlast : ("\n" : String) = "" := (String.append_eq_empty_iff.mp hs).2
    exact absurd hlast (by decide)
  have hne' : ls' ≠ [] := by
    rintro rfl
    exact hne (List.forall₂_nil_right_iff.mp hdeeper)
  have hu : "\n".intercalate ls' ++ "\n" = ended ls' := (ended_eq_intercalate hne').symm
  refine ⟨_, ht.trans hu.symm, ?_⟩
  rw [split_eq_of_ended hne (fun l hl => hlines l (List.mem_append_left _ hl)) hs,
    split_eq_of_ended hne' (fun l hl => hlines l (List.mem_append_right _ hl)) hu]
  exact hdeeper

end Indented

/-! ### What a writer writes -/

section

variable {i : Indent} (hi : i.char ≠ '\n')
include hi

theorem not_mem_unit : '\n' ∉ i.unit.toList := by
  rw [Indent.unit, String.toList_ofList]
  intro hmem
  exact hi (List.eq_of_mem_replicate hmem).symm

theorem not_mem_margin (level : Nat) : '\n' ∉ (margin i level).toList := by
  induction level with
  | zero => exact List.not_mem_nil
  | succ level ih =>
    rw [margin_succ, String.toList_append, List.mem_append, not_or]
    exact ⟨not_mem_unit hi, ih⟩

/-- A text without line feeds behind the margin. -/
theorem indented_margin {s : String} (hs : '\n' ∉ s.toList) (level : Nat) :
    Indented i.unit (margin i level ++ s ++ "\n") (margin i (level + 1) ++ s ++ "\n") := by
  have hline : '\n' ∉ (margin i level ++ s).toList := by
    rw [String.toList_append, List.mem_append, not_or]
    exact ⟨not_mem_margin hi level, hs⟩
  rw [margin_succ]
  simpa only [String.append_assoc] using Indented.line (not_mem_unit hi) hline

omit hi in
/-- At level zero a text is written as it stands. Without carriage returns this
is no different from what happens at any other level. -/
theorem lineText_eq_join {s : String} {level : Nat} (h : level = 0 → '\r' ∉ s.toList) :
    lineText i level s = String.join ((Text.pieces (· == '\n') s.toList).map fun w =>
      margin i level ++ String.ofList (Text.dropFinal '\r' w) ++ "\n") := by
  rw [lineText]
  split
  · rename_i hlevel
    subst hlevel
    have hplain : ∀ w ∈ Text.pieces (· == '\n') s.toList,
        margin i 0 ++ String.ofList (Text.dropFinal '\r' w) ++ "\n" = String.ofList w ++ "\n" := by
      intro w hw
      rw [Text.dropFinal_eq_self fun hmem => h rfl (Text.mem_of_mem_pieces hw hmem)]
      rfl
    rw [List.map_congr_left hplain, ← ended_split, ended, Text.split, List.map_map]
    rfl
  · rfl

/-- **A line at two levels.** At level zero it must not hold the carriage
returns that it would lose at any other level. -/
theorem indented_lineText {s : String} {level : Nat} (h : level = 0 → '\r' ∉ s.toList) :
    Indented i.unit (lineText i level s) (lineText i (level + 1) s) := by
  rw [lineText_eq_join h, lineText_eq_join fun hlevel => absurd hlevel (Nat.succ_ne_zero level)]
  refine Indented.join_map fun w hw => indented_margin hi ?_ level
  rw [String.toList_ofList]
  exact fun hmem => Text.not_mem_of_mem_pieces hw (Text.mem_of_mem_dropFinal hmem)

theorem indented_linesText {ls : List String} {level : Nat}
    (h : level = 0 → ∀ l ∈ ls, '\r' ∉ l.toList) :
    Indented i.unit (linesText i level ls) (linesText i (level + 1) ls) := by
  rw [linesText, linesText]
  exact Indented.join_map fun l hl => indented_lineText hi fun hlevel => h hlevel l hl

/-- A line inside of a block, where nothing is asked of its characters. -/
theorem indented_lineText_succ (s : String) (level : Nat) :
    Indented i.unit (lineText i (level + 1) s) (lineText i (level + 1 + 1) s) :=
  indented_lineText hi fun hlevel => absurd hlevel (Nat.succ_ne_zero level)

theorem indented_linesText_succ (ls : List String) (level : Nat) :
    Indented i.unit (linesText i (level + 1) ls) (linesText i (level + 1 + 1) ls) :=
  indented_linesText hi fun hlevel => absurd hlevel (Nat.succ_ne_zero level)

theorem indented_openLine (level : Nat) :
    Indented i.unit (openLine i level) (openLine i (level + 1)) :=
  indented_margin hi (by decide) level

/-! ### Blocks -/

omit hi in
/-- What is missing behind a text that ends in the last brace of a level. -/
def trail : (level : Nat) → String
  | 0 => "\n"
  | _ + 1 => ""

theorem indented_closeLine (level : Nat) :
    Indented i.unit (closeLine i level ++ trail level) (closeLine i (level + 1)) := by
  cases level with
  | zero => exact indented_margin hi (s := "\x7d") (by decide) 0
  | succ level =>
    rw [trail, String.append_empty]
    exact indented_margin hi (by decide) (level + 1)

/-- **A block one level deeper**: its head and its body are. -/
theorem indented_block (level : Nat) {head head' body body' : String}
    (hhead : Indented i.unit head head') (hbody : Indented i.unit body body') :
    Indented i.unit (block i level head body ++ trail level) (block i (level + 1) head' body') := by
  have hclose : block i level head body ++ trail level =
      head ++ openLine i level ++ body ++ (closeLine i level ++ trail level) := by
    rw [block]
    simp only [String.append_assoc]
  rw [hclose, block]
  exact ((hhead.append (indented_openLine hi level)).append hbody).append
    (indented_closeLine hi level)

/-- **Nested declarations one level deeper**, where what they nest around is.
Only the outermost of them can stand at level zero. -/
theorem indented_nested {inner inner' : Nat → String} {level : Nat} {ds : List String}
    (h : level = 0 → ∀ d ∈ ds, '\r' ∉ d.toList)
    (hinner : Indented i.unit (inner (level + ds.length) ++ trail (level + ds.length))
      (inner' (level + 1 + ds.length))) :
    Indented i.unit (nested i inner level ds ++ trail level) (nested i inner' (level + 1) ds) := by
  induction ds generalizing level with
  | nil => exact hinner
  | cons d ds ih =>
    have hlength : level + (d :: ds).length = level + 1 + ds.length := by
      rw [List.length_cons]
      omega
    have hlength' : level + 1 + (d :: ds).length = level + 1 + 1 + ds.length := by
      rw [List.length_cons]
      omega
    rw [hlength, hlength'] at hinner
    have hbody := ih (fun hlevel => absurd hlevel (Nat.succ_ne_zero level)) hinner
    rw [trail, String.append_empty] at hbody
    rw [nested, nested]
    exact indented_block hi level
      (indented_lineText hi fun hlevel => h hlevel d (List.mem_cons_self ..)) hbody

end

end Layout

end SharpSource
