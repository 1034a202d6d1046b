import Mathlib.Logic.Relation
import SharpSource.Emitter.Basic
import SharpSource.Proofs.Layout

/-!
# What a writer can reach

Whoever is handed a writer works it by its operations: lines, empty lines,
blocks, and the level. A `Writer.Step` is one operation that succeeds, and
`Writer.Reaches` any number of them. No operation takes text away, and none
touches the indentation (`Writer.Step.grows`), so the same holds of a whole run
(`Writer.Reaches.grows`), whatever the run looks like.

An emitter that keeps to the operations therefore leaves everything above its
own piece as it was. Whether it also leaves the *level* as it found it is a
promise of its own, `Emitter.KeepsLevel`: a run may open a block and forget to
close it.
-/

namespace SharpSource

/-! ### Steps and runs -/

/-- **One operation of a writer**, as it succeeds. -/
inductive Writer.Step : Writer → Writer → Prop
  /-- A line is written, or several. -/
  | line (w : Writer) (s : String) : Step w (w.line s)
  /-- A line of one character is written. -/
  | charLine (w : Writer) (c : Char) : Step w (w.charLine c)
  /-- An empty line is written. -/
  | blankLine (w : Writer) : Step w w.blankLine
  /-- Empty lines are written. -/
  | blankLines (w : Writer) (n : Nat) : Step w (w.blankLines n)
  /-- A block is opened. -/
  | openBlock (w : Writer) : Step w w.openBlock
  /-- The innermost block is closed. -/
  | closeBlock {w w' : Writer} : w.closeBlock = .ok w' → Step w w'
  /-- Every open block is closed. -/
  | closeAll (w : Writer) : Step w w.closeAll
  /-- The level is set. -/
  | setLevel {w w' : Writer} (level : Int) : w.setLevel level = .ok w' → Step w w'

namespace Writer

/-- **Reachability**: any number of operations. -/
abbrev Reaches : Writer → Writer → Prop := Relation.ReflTransGen Step

/-- A writer **extends** another: it has the same indentation, and all of the
text. -/
def Extends (w w' : Writer) : Prop :=
  w'.indent = w.indent ∧ ∃ s, w'.text = w.text ++ s

theorem Extends.refl (w : Writer) : w.Extends w :=
  ⟨rfl, "", by simp⟩

theorem Extends.trans {w w' w'' : Writer} (h : w.Extends w') (h' : w'.Extends w'') :
    w.Extends w'' := by
  obtain ⟨hi, s, hs⟩ := h
  obtain ⟨hi', s', hs'⟩ := h'
  exact ⟨hi'.trans hi, s ++ s', by rw [hs', hs, String.append_assoc]⟩

theorem extends_put (w : Writer) (s : String) (level : Nat) :
    w.Extends { w.put s with level } :=
  ⟨rfl, s, rfl⟩

/-- Closing a block is going down one level and writing its brace there. -/
theorem closeBlock_eq_ok {w w' : Writer} (h : w.closeBlock = .ok w') :
    ∃ level, w.level = level + 1 ∧ w' = { w with level }.closingBrace := by
  rw [closeBlock] at h
  split at h
  · cases h
  · rename_i level hlevel
    exact ⟨level, hlevel, (Except.ok.inj h).symm⟩

theorem extends_closingBrace (w : Writer) (level : Nat) :
    w.Extends { w with level }.closingBrace := by
  rw [closingBrace_eq]
  exact extends_put w _ level

theorem extends_closeAll (w : Writer) : w.Extends w.closeAll := by
  rw [closeAll_eq]
  exact extends_put w _ 0

/-- **No operation takes text away**, and none changes the indentation. -/
theorem Step.grows {w w' : Writer} (h : Step w w') : w.Extends w' := by
  cases h with
  | line s => exact extends_put w _ w.level
  | charLine c => exact extends_put w _ w.level
  | blankLine => exact extends_put w _ w.level
  | blankLines n => exact extends_put w _ w.level
  | openBlock => exact extends_put w _ (w.level + 1)
  | closeBlock h =>
    obtain ⟨level, -, rfl⟩ := closeBlock_eq_ok h
    exact extends_closingBrace w level
  | closeAll => exact extends_closeAll w
  | setLevel level h =>
    rw [Writer.setLevel] at h
    split at h
    · cases h
    · cases h
      exact ⟨rfl, "", by simp⟩

/-- **No run takes text away**, and none changes the indentation. -/
theorem Reaches.grows {w w' : Writer} (h : w.Reaches w') : w.Extends w' := by
  induction h with
  | refl => exact Extends.refl w
  | tail _ hstep ih => exact ih.trans hstep.grows

/-- A writer is another with **more text**, and nothing else about it is
different. -/
def MoreText (w w' : Writer) : Prop :=
  ∃ s, w' = w.put s

theorem MoreText.refl (w : Writer) : w.MoreText w :=
  ⟨"", by simp [put]⟩

theorem MoreText.trans {w w' w'' : Writer} (h : w.MoreText w') (h' : w'.MoreText w'') :
    w.MoreText w'' := by
  obtain ⟨s, rfl⟩ := h
  obtain ⟨s', rfl⟩ := h'
  exact ⟨s ++ s', by simp [put, String.append_assoc]⟩

theorem moreText_line (w : Writer) (s : String) : w.MoreText (w.line s) := ⟨_, rfl⟩

theorem moreText_blankLines (w : Writer) (n : Nat) : w.MoreText (w.blankLines n) := ⟨_, rfl⟩

/-- An extension at the same level is more text. -/
theorem moreText_of_extends {w w' : Writer} (h : w.Extends w') (hlevel : w'.level = w.level) :
    w.MoreText w' := by
  obtain ⟨hindent, s, htext⟩ := h
  refine ⟨s, ?_⟩
  cases w
  cases w'
  simp_all [put]

theorem reaches_lines (ls : List String) (w : Writer) : w.Reaches (w.lines ls) := by
  induction ls generalizing w with
  | nil => exact .refl
  | cons l ls ih => exact .head (.line w l) (ih (w.line l))

end Writer

/-! ### What emitters promise -/

namespace Emitter

/-- An emitter **works by operations** when it does nothing else to the writer
that it is handed. -/
def WorksByOperations (e : Emitter) : Prop :=
  ∀ c w w', e.write c w = .ok w' → w.Reaches w'

/-- An emitter **keeps the level** when it leaves the level of the writer as it
found it. -/
def KeepsLevel (e : Emitter) : Prop :=
  ∀ c w w', e.write c w = .ok w' → w'.level = w.level

end Emitter

end SharpSource
