import SharpSource.Indent
import SharpSource.Text.Basic

/-!
# The writer

Source is written line by line. A `Writer` holds the text so far, the level of
indentation that the next line takes, and the indentation itself. At level zero
a text is written as it stands; at any other level each of its lines is
indented by itself and loses a carriage return at its end.

A **block** is an opening brace on a line of its own, its contents one level
deeper, and a closing brace. The brace that closes the outermost block is the
one thing that is written without a line feed behind it.

No operation takes text away: `Writer.text` only grows, apart from
`Writer.rollback`, which goes back to an earlier text.
-/

namespace SharpSource

/-- Text under construction. -/
structure Writer where
  /-- The text so far. -/
  text : String := ""
  /-- The level of indentation of the next line. -/
  level : Nat := 0
  /-- One level of indentation. -/
  indent : Indent := .spaces
  deriving DecidableEq, Inhabited

namespace Writer

/-- The number of bytes written so far. -/
def size (w : Writer) : Nat :=
  w.text.utf8ByteSize

/-- The writer after some more text. -/
def put (w : Writer) (s : String) : Writer :=
  { w with text := w.text ++ s }

/-- The indentation in front of a line at some level. -/
def margin (indent : Indent) (level : Nat) : String :=
  String.join (List.replicate level indent.unit)

/-- What a line of text becomes at some level: at level zero itself and a line
feed, else each of its lines with the margin in front. -/
def lineText (indent : Indent) (level : Nat) (s : String) : String :=
  if level = 0 then s ++ "\n"
  else
    String.join <| (Text.pieces (· == '\n') s.toList).map fun piece =>
      margin indent level ++ String.ofList (Text.dropFinal '\r' piece) ++ "\n"

/-- Writes a line, or several of them. -/
def line (w : Writer) (s : String) : Writer :=
  w.put (lineText w.indent w.level s)

/-- Writes lines, one after the other. -/
def lines (w : Writer) (ls : List String) : Writer :=
  ls.foldl line w

/-- Writes a line of one character, whatever it is. -/
def charLine (w : Writer) (c : Char) : Writer :=
  w.put (margin w.indent w.level ++ String.singleton c ++ "\n")

/-- Writes an empty line, which takes no margin. -/
def blankLine (w : Writer) : Writer :=
  w.put "\n"

/-- Writes empty lines. -/
def blankLines (w : Writer) (n : Nat) : Writer :=
  w.put (String.ofList (List.replicate n '\n'))

/-- Opens a block. -/
def openBlock (w : Writer) : Writer :=
  let w := w.charLine '\x7b'
  { w with level := w.level + 1 }

/-- Writes the brace that ends a block, at the level around it. -/
def closingBrace (w : Writer) : Writer :=
  if w.level = 0 then w.put "\x7d" else w.charLine '\x7d'

/-- Closes the innermost block. -/
def closeBlock (w : Writer) : Except Failure Writer :=
  match w.level with
  | 0 => .error .noOpenBlock
  | level + 1 => .ok { w with level }.closingBrace

/-- Closes the `n` innermost blocks. -/
def closeBlocks : Nat → Writer → Writer
  | 0, w => w
  | n + 1, w => closeBlocks n { w with level := n }.closingBrace

/-- Closes every open block. -/
def closeAll (w : Writer) : Writer :=
  closeBlocks w.level w

/-- Sets the level of the next line. -/
def setLevel (w : Writer) (level : Int) : Except Failure Writer :=
  if level < 0 then .error (.negativeLevel level) else .ok { w with level := level.toNat }

/-- Goes back to the text of an earlier writer, and to nothing else of it. -/
def rollback (w earlier : Writer) : Writer :=
  { w with text := earlier.text }

/-! ### What each operation does to the text -/

@[simp] theorem text_put (w : Writer) (s : String) : (w.put s).text = w.text ++ s := rfl
@[simp] theorem level_put (w : Writer) (s : String) : (w.put s).level = w.level := rfl
@[simp] theorem indent_put (w : Writer) (s : String) : (w.put s).indent = w.indent := rfl

@[simp] theorem text_line (w : Writer) (s : String) :
    (w.line s).text = w.text ++ lineText w.indent w.level s := rfl
@[simp] theorem level_line (w : Writer) (s : String) : (w.line s).level = w.level := rfl
@[simp] theorem indent_line (w : Writer) (s : String) : (w.line s).indent = w.indent := rfl

@[simp] theorem text_charLine (w : Writer) (c : Char) :
    (w.charLine c).text =
      w.text ++ (margin w.indent w.level ++ String.singleton c ++ "\n") := rfl
@[simp] theorem level_charLine (w : Writer) (c : Char) : (w.charLine c).level = w.level := rfl

@[simp] theorem text_blankLine (w : Writer) : w.blankLine.text = w.text ++ "\n" := rfl
@[simp] theorem level_blankLine (w : Writer) : w.blankLine.level = w.level := rfl

@[simp] theorem text_blankLines (w : Writer) (n : Nat) :
    (w.blankLines n).text = w.text ++ String.ofList (List.replicate n '\n') := rfl
@[simp] theorem level_blankLines (w : Writer) (n : Nat) : (w.blankLines n).level = w.level := rfl

@[simp] theorem level_openBlock (w : Writer) : w.openBlock.level = w.level + 1 := rfl
@[simp] theorem indent_openBlock (w : Writer) : w.openBlock.indent = w.indent := rfl

@[simp] theorem text_rollback (w earlier : Writer) : (w.rollback earlier).text = earlier.text := rfl
@[simp] theorem level_rollback (w earlier : Writer) : (w.rollback earlier).level = w.level := rfl

/-- Closing every block leaves none open. -/
theorem level_closeBlocks (n : Nat) (w : Writer) (h : w.level = n) :
    (closeBlocks n w).level = 0 := by
  induction n generalizing w with
  | zero => exact h
  | succ n ih =>
    refine ih _ ?_
    rw [closingBrace]
    split <;> rfl

theorem level_closeAll (w : Writer) : w.closeAll.level = 0 :=
  level_closeBlocks w.level w rfl

end Writer

end SharpSource
