import SharpSource.Writer

/-!
# Writers in place

Whoever works a writer holds one writer and changes it, one operation after the
other. An operation may fail, and then the writer is still there and worked on.
So an operation **in place** is a program that leaves a writer behind in either
case (`Writer.Op.perform`), and a run goes on from what the last operation left,
whether it succeeded or failed (`Writer.run`).

What a failure leaves behind is decided by the order of things in the program:
both operations that can fail look at the level before they change anything.
-/

namespace SharpSource.Writer

/-- An operation of a writer. -/
inductive Op where
  /-- Write a line, or several. -/
  | line (s : String)
  /-- Write a line of one character. -/
  | charLine (c : Char)
  /-- Write an empty line. -/
  | blankLine
  /-- Write empty lines. -/
  | blankLines (n : Nat)
  /-- Open a block. -/
  | openBlock
  /-- Close the innermost block. -/
  | closeBlock
  /-- Close every open block. -/
  | closeAll
  /-- Set the level. -/
  | setLevel (level : Int)
  deriving DecidableEq, Repr

/-- A program that works a writer. There is a writer after a failure, too. -/
abbrev Work := EStateM Failure Writer

/-- Closes the innermost block in place. -/
def closeBlockInPlace : Work Unit := do
  if (← get).level = 0 then
    throw .noOpenBlock
  modify fun w => { w with level := w.level - 1 }
  modify closingBrace

/-- Sets the level in place. -/
def setLevelInPlace (level : Int) : Work Unit := do
  if level < 0 then
    throw (.negativeLevel level)
  modify fun w => { w with level := level.toNat }

namespace Op

/-- Carries out an operation in place. -/
def perform : Op → Work Unit
  | line s => modify (·.line s)
  | charLine c => modify (·.charLine c)
  | blankLine => modify (·.blankLine)
  | blankLines n => modify (·.blankLines n)
  | openBlock => modify (·.openBlock)
  | closeBlock => closeBlockInPlace
  | closeAll => modify (·.closeAll)
  | setLevel level => setLevelInPlace level

/-- The writer that an operation leaves behind. -/
def after (op : Op) (w : Writer) : Writer :=
  match op.perform w with
  | .ok _ w' => w'
  | .error _ w' => w'

/-- The failure of an operation, where it fails. -/
def failure? (op : Op) (w : Writer) : Option Failure :=
  match op.perform w with
  | .ok _ _ => none
  | .error e _ => some e

end Op

/-- The writer after a run of operations, each carried out on what the one
before left behind. -/
def run (w : Writer) (ops : List Op) : Writer :=
  ops.foldl (fun w op => op.after w) w

end SharpSource.Writer
