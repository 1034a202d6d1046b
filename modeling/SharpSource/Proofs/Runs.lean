import SharpSource.Proofs.Reach
import SharpSource.Writer.InPlace

/-!
# Runs of a writer

A run works one writer through any operations in any order, those that fail
included. Three things are true at every moment of it.

The text only grows, and **a failure changes nothing**: the program of an
operation comes to the operation as a function, and leaves the writer alone
where that has no result (`Writer.Op.perform_eq`).

The level is **a balance**: as long as nobody sets it, it is the number of
blocks opened less the number of blocks closed (`Writer.level_run_add_closed`).
How many blocks an operation closes is read off the text, as the number of
braces that it writes.

And closing everything is **closing one block after the other** until there is
none left (`Writer.run_replicate_closeBlock`).
-/

namespace SharpSource.Writer

open Layout

namespace Op

/-! ### What an operation leaves behind -/

/-- The operation as a function of the writer: the next writer, or a failure. -/
def outcome : Op → Writer → Except Failure Writer
  | line s, w => .ok (w.line s)
  | charLine c, w => .ok (w.charLine c)
  | blankLine, w => .ok w.blankLine
  | blankLines n, w => .ok (w.blankLines n)
  | openBlock, w => .ok w.openBlock
  | closeBlock, w => w.closeBlock
  | closeAll, w => .ok w.closeAll
  | setLevel level, w => w.setLevel level

theorem closeBlockInPlace_eq (w : Writer) :
    closeBlockInPlace w = match w.closeBlock with
      | .ok w' => .ok () w'
      | .error e => .error e w := by
  rcases w with ⟨text, level, indent⟩
  cases level with
  | zero => rfl
  | succ level => rfl

theorem setLevelInPlace_eq (level : Int) (w : Writer) :
    setLevelInPlace level w = match w.setLevel level with
      | .ok w' => .ok () w'
      | .error e => .error e w := by
  by_cases hlevel : level < 0
  · rw [Writer.setLevel, if_pos hlevel, setLevelInPlace, if_pos hlevel]
    rfl
  · rw [Writer.setLevel, if_neg hlevel, setLevelInPlace, if_neg hlevel]
    rfl

/-- **An operation in place** comes to its function; where that fails, the
writer is as it was. -/
theorem perform_eq (op : Op) (w : Writer) :
    op.perform w = match op.outcome w with
      | .ok w' => .ok () w'
      | .error e => .error e w := by
  cases op with
  | closeBlock => exact closeBlockInPlace_eq w
  | setLevel level => exact setLevelInPlace_eq level w
  | line s => rfl
  | charLine c => rfl
  | blankLine => rfl
  | blankLines n => rfl
  | openBlock => rfl
  | closeAll => rfl

variable {op : Op} {w w' : Writer} {e : Failure}

theorem after_of_ok (h : op.outcome w = .ok w') : op.after w = w' := by
  rw [after, perform_eq, h]

theorem after_of_error (h : op.outcome w = .error e) : op.after w = w := by
  rw [after, perform_eq, h]

theorem failure?_eq_some_iff : op.failure? w = some e ↔ op.outcome w = .error e := by
  rw [failure?, perform_eq]
  cases op.outcome w with
  | ok w' => simp
  | error e' => simp

/-- **What fails**: closing a block where none is open, and setting a level
below zero. -/
theorem outcome_eq_error_iff : op.outcome w = .error e ↔
    (op = .closeBlock ∧ w.level = 0 ∧ e = .noOpenBlock) ∨
      ∃ level < 0, op = .setLevel level ∧ e = .negativeLevel level := by
  cases op with
  | closeBlock =>
    rw [outcome, Writer.closeBlock]
    split
    · rename_i hlevel
      simp [hlevel, eq_comm]
    · rename_i hlevel
      simp [hlevel]
  | setLevel level =>
    rw [outcome, Writer.setLevel]
    constructor
    · intro h
      split at h
      · rename_i hlevel
        exact Or.inr ⟨level, hlevel, rfl, (Except.error.inj h).symm⟩
      · cases h
    · rintro (⟨⟨⟩, -⟩ | ⟨level, hlevel, ⟨⟩, rfl⟩)
      rw [if_pos hlevel]
  | line s => simp [outcome]
  | charLine c => simp [outcome]
  | blankLine => simp [outcome]
  | blankLines n => simp [outcome]
  | openBlock => simp [outcome]
  | closeAll => simp [outcome]

/-- An operation that succeeds is a step. -/
theorem step_of_outcome (h : op.outcome w = .ok w') : Step w w' := by
  cases op with
  | line s => exact Except.ok.inj h ▸ .line w s
  | charLine c => exact Except.ok.inj h ▸ .charLine w c
  | blankLine => exact Except.ok.inj h ▸ .blankLine w
  | blankLines n => exact Except.ok.inj h ▸ .blankLines w n
  | openBlock => exact Except.ok.inj h ▸ .openBlock w
  | closeBlock => exact .closeBlock h
  | closeAll => exact Except.ok.inj h ▸ .closeAll w
  | setLevel level => exact .setLevel level h

/-- **No operation in place takes text away**, whether it succeeds or fails. -/
theorem extends_after (op : Op) (w : Writer) : w.Extends (op.after w) := by
  cases h : op.outcome w with
  | ok w' =>
    rw [after_of_ok h]
    exact (step_of_outcome h).grows
  | error e =>
    rw [after_of_error h]
    exact Extends.refl w

end Op

/-! ### Braces -/

/-- The closing braces in a text. -/
def braces (s : String) : Nat :=
  s.toList.count '\x7d'

theorem braces_append (s t : String) : braces (s ++ t) = braces s + braces t := by
  rw [braces, String.toList_append, List.count_append]
  rfl

/-- An indentation has no braces in it, as they are not blank. -/
theorem braces_margin (i : Indent) (level : Nat) : braces (margin i level) = 0 := by
  have hchar : i.char ≠ '\x7d' := fun h => by
    have hblank := i.char_blank
    rw [h] at hblank
    exact absurd hblank (by decide)
  have hunit : braces i.unit = 0 := by
    rw [braces, Indent.unit, String.toList_ofList, List.count_eq_zero]
    exact fun hmem => hchar (List.eq_of_mem_replicate hmem).symm
  induction level with
  | zero => rfl
  | succ level ih => rw [margin_succ, braces_append, hunit, ih]

theorem braces_closeLine (i : Indent) (level : Nat) : braces (closeLine i level) = 1 := by
  cases level with
  | zero =>
    change braces "\x7d" = 1
    decide +kernel
  | succ level =>
    have hbrace : braces (String.singleton '\x7d') = 1 := by decide +kernel
    have hfeed : braces "\n" = 0 := by decide +kernel
    rw [closeLine, braces_append, braces_append, braces_margin, hbrace, hfeed]

theorem braces_closeLines (i : Indent) (level : Nat) : braces (closeLines i level) = level := by
  induction level with
  | zero => rfl
  | succ level ih =>
    rw [closeLines, braces_append, braces_closeLine, ih, Nat.add_comm]

/-! ### The balance of blocks -/

/-- How many blocks an operation closes: as many as the braces that closing
writes. -/
def Op.closes (op : Op) (w : Writer) : Nat :=
  match op with
  | .closeBlock | .closeAll => braces (op.after w).text - braces w.text
  | _ => 0

/-- How many blocks a run opens. -/
def opened (ops : List Op) : Nat :=
  ops.count .openBlock

/-- How many blocks a run closes. -/
def closed : Writer → List Op → Nat
  | _, [] => 0
  | w, op :: ops => op.closes w + closed (op.after w) ops

theorem Op.after_closeBlock {w : Writer} {level : Nat} (h : w.level = level + 1) :
    closeBlock.after w = { w with level }.closingBrace := by
  refine after_of_ok ?_
  rw [outcome, Writer.closeBlock, h]

theorem Op.after_closeAll (w : Writer) : closeAll.after w = w.closeAll :=
  after_of_ok rfl

theorem braces_closeAll (w : Writer) : braces w.closeAll.text = braces w.text + w.level := by
  rw [closeAll_eq]
  change braces (w.text ++ closeLines w.indent w.level) = _
  rw [braces_append, braces_closeLines]

/-- **One operation keeps the balance**, unless it sets the level. -/
theorem Op.level_after_add_closes {op : Op} (h : ∀ level, op ≠ .setLevel level) (w : Writer) :
    (op.after w).level + op.closes w = w.level + opened [op] := by
  cases op with
  | setLevel level => exact absurd rfl (h level)
  | closeBlock =>
    cases hlevel : w.level with
    | zero =>
      -- Nothing is open, so the writer is as it was and no brace is written.
      have hafter : closeBlock.after w = w :=
        after_of_error (outcome_eq_error_iff.mpr (Or.inl ⟨rfl, hlevel, rfl⟩))
      rw [closes, hafter, hlevel, Nat.sub_self]
      rfl
    | succ level =>
      have hbraces : braces (closeBlock.after w).text = braces w.text + 1 := by
        rw [after_closeBlock hlevel, closingBrace_eq, text_put, braces_append, braces_closeLine]
      rw [closes, hbraces, Nat.add_sub_cancel_left, after_closeBlock hlevel, closingBrace_eq,
        level_put]
      rfl
  | closeAll =>
    rw [closes, after_closeAll, braces_closeAll, Nat.add_sub_cancel_left, level_closeAll,
      Nat.zero_add]
    rfl
  | line s => rfl
  | charLine c => rfl
  | blankLine => rfl
  | blankLines n => rfl
  | openBlock => rfl

/-- **The level is a balance**: what a run has at its end, and what it closed on
the way, is what it had at first and what it opened. -/
theorem level_run_add_closed {ops : List Op} (h : ∀ level, Op.setLevel level ∉ ops) (w : Writer) :
    (w.run ops).level + closed w ops = w.level + opened ops := by
  induction ops generalizing w with
  | nil => rfl
  | cons op ops ih =>
    have hop := op.level_after_add_closes
      (fun level heq => h level (heq ▸ List.mem_cons_self ..)) w
    have hops := ih (fun level hmem => h level (List.mem_cons_of_mem op hmem)) (op.after w)
    have hopened : opened (op :: ops) = opened [op] + opened ops := by
      rw [opened, ← List.singleton_append, List.count_append]
      rfl
    change ((op.after w).run ops).level + (op.closes w + closed (op.after w) ops) = _
    omega

/-! ### Closing one block after the other -/

/-- **Closing everything is closing one block after the other**, as many as are
open. -/
theorem run_replicate_closeBlock (n : Nat) (w : Writer) (h : w.level = n) :
    w.run (List.replicate n .closeBlock) = closeBlocks n w := by
  induction n generalizing w with
  | zero => rfl
  | succ n ih =>
    change (Op.closeBlock.after w).run (List.replicate n .closeBlock) = _
    rw [Op.after_closeBlock h, closeBlocks]
    exact ih _ (by rw [closingBrace_eq, level_put])

/-- As long as a block is open, closing one goes down one level. -/
theorem level_run_replicate_closeBlock {k : Nat} {w : Writer} (h : k ≤ w.level) :
    (w.run (List.replicate k .closeBlock)).level + k = w.level := by
  induction k generalizing w with
  | zero => rfl
  | succ k ih =>
    obtain ⟨level, hlevel⟩ := Nat.exists_eq_add_one_of_ne_zero (n := w.level) (by omega)
    change ((Op.closeBlock.after w).run (List.replicate k .closeBlock)).level + (k + 1) = _
    have hafter : (Op.closeBlock.after w).level = level := by
      rw [Op.after_closeBlock hlevel, closingBrace_eq, level_put]
    have hrest := ih (w := Op.closeBlock.after w) (by omega)
    omega

/-! ### The law of runs -/

/-- **The law of runs.** At every moment of a run that starts with an empty
text, whatever came before: the next operation keeps the text and puts more
behind it, and if it fails it leaves text and level as they are, which happens
for closing without an open block and for a level below zero; the level is the
number of blocks opened less the number of blocks closed, unless it was set on
the way; and closing all `n` open blocks is closing one block `n` times, each
time with success, which writes `n` braces and ends at level zero, where closing
one more block fails. -/
theorem run_law (i : Indent) (ops : List Op) :
    let start : Writer := { indent := i }
    let w := start.run ops
    (∀ op : Op, (∃ s, (op.after w).text = w.text ++ s) ∧
      (∀ e, op.failure? w = some e →
        (op.after w).text = w.text ∧ (op.after w).level = w.level) ∧
      ((op.failure? w).isSome ↔
        (op = .closeBlock ∧ w.level = 0) ∨ ∃ level < 0, op = .setLevel level)) ∧
    ((∀ level, Op.setLevel level ∉ ops) → w.level + closed start ops = opened ops) ∧
    (∀ k < w.level, Op.closeBlock.failure? (w.run (List.replicate k .closeBlock)) = none) ∧
    Op.closeAll.after w = w.run (List.replicate w.level .closeBlock) ∧
    braces (Op.closeAll.after w).text = braces w.text + w.level ∧
    (Op.closeAll.after w).level = 0 ∧
    Op.closeBlock.failure? (Op.closeAll.after w) = some .noOpenBlock := by
  intro start w
  have hzero : (Op.closeAll.after w).level = 0 := by
    rw [Op.after_closeAll]
    exact level_closeAll w
  refine ⟨fun op => ⟨(op.extends_after w).2, fun e he => ?_, ?_⟩, fun h => ?_, fun k hk => ?_,
    ?_, ?_, hzero, ?_⟩
  · rw [Op.after_of_error (Op.failure?_eq_some_iff.mp he)]
    exact ⟨rfl, rfl⟩
  · rw [Option.isSome_iff_exists]
    simp only [Op.failure?_eq_some_iff, Op.outcome_eq_error_iff]
    constructor
    · rintro ⟨e, ⟨hop, hlevel, -⟩ | ⟨level, hlevel, hop, -⟩⟩
      · exact Or.inl ⟨hop, hlevel⟩
      · exact Or.inr ⟨level, hlevel, hop⟩
    · rintro (⟨hop, hlevel⟩ | ⟨level, hlevel, hop⟩)
      · exact ⟨_, Or.inl ⟨hop, hlevel, rfl⟩⟩
      · exact ⟨_, Or.inr ⟨level, hlevel, hop, rfl⟩⟩
  · have hbalance := level_run_add_closed h start
    rwa [show start.level = 0 from rfl, Nat.zero_add] at hbalance
  · have hlevel := level_run_replicate_closeBlock (Nat.le_of_lt hk)
    cases hfailure : Op.closeBlock.failure? (w.run (List.replicate k .closeBlock)) with
    | none => rfl
    | some e =>
      rcases Op.outcome_eq_error_iff.mp (Op.failure?_eq_some_iff.mp hfailure) with
        ⟨-, hnone, -⟩ | ⟨_, -, ⟨⟩, -⟩
      omega
  · rw [Op.after_closeAll]
    exact (run_replicate_closeBlock w.level w rfl).symm
  · rw [Op.after_closeAll, braces_closeAll]
  · exact Op.failure?_eq_some_iff.mpr (Op.outcome_eq_error_iff.mpr (Or.inl ⟨rfl, hzero, rfl⟩))

/-- A run with two failures in it: three blocks are opened and two of them
closed. -/
theorem run_law_reopened :
    let ops : List Op := [.closeBlock, .line "class A", .openBlock, .openBlock,
      .line "int x;\nint y;", .closeBlock, .closeAll, .closeBlock, .blankLine, .openBlock]
    let start : Writer := { indent := .tab }
    (∀ level, Op.setLevel level ∉ ops) ∧
      (start.run ops).level + closed start ops = opened ops ∧
      (start.run ops).level = 1 ∧ closed start ops = 2 ∧
      (start.run ops).text =
        "class A\n\x7b\n\t\x7b\n\t\tint x;\n\t\tint y;\n\t\x7d\n\x7d\n\x7b\n" := by
  intro ops start
  have hops : ∀ level, Op.setLevel level ∉ ops := by simp [ops]
  exact ⟨hops, (run_law .tab ops).2.1 hops, by decide +kernel, by decide +kernel,
    by decide +kernel⟩

end SharpSource.Writer
