import SharpSource.Writer

/-!
# The text of blocks

What a writer does to a text can be said without the writer. A block at some
level is a head, a line with the opening brace, a body, and the closing brace;
declarations that stand in each other are blocks in blocks. `Layout.nested` is
that form, by recursion from the outermost declaration inwards.

A writer never sees it: it opens the blocks one after the other and closes
whatever is open when all is written. `Layout.openings_append_closeLines` says
that the two are the same text.
-/

namespace SharpSource

namespace Layout

open Writer (margin lineText)

/-! ### Lines and braces -/

theorem margin_succ (i : Indent) (level : Nat) :
    margin i (level + 1) = i.unit ++ margin i level := by
  rw [margin, List.replicate_succ, String.join_cons]
  rfl

/-- The text of some lines at a level. -/
def linesText (i : Indent) (level : Nat) (ls : List String) : String :=
  String.join (ls.map (lineText i level))

/-- The line that opens a block at a level. -/
def openLine (i : Indent) (level : Nat) : String :=
  margin i level ++ String.singleton '\x7b' ++ "\n"

/-- The brace that ends a block at a level, with a line feed behind it unless
the block is an outermost one. -/
def closeLine (i : Indent) : (level : Nat) → String
  | 0 => "\x7d"
  | level + 1 => margin i (level + 1) ++ String.singleton '\x7d' ++ "\n"

/-- The braces that end all blocks below a level, the innermost first. -/
def closeLines (i : Indent) : (level : Nat) → String
  | 0 => ""
  | level + 1 => closeLine i level ++ closeLines i level

/-! ### Blocks -/

/-- **A block** at a level: its head, and its body between braces. -/
def block (i : Indent) (level : Nat) (head body : String) : String :=
  head ++ openLine i level ++ body ++ closeLine i level

/-- **Nested declarations**, the outermost first: each is the head of a block,
one level deeper than the block around it, and the innermost block holds a text
that depends on its level. -/
def nested (i : Indent) (inner : Nat → String) : (level : Nat) → List String → String
  | level, [] => inner level
  | level, d :: ds => block i level (lineText i level d) (nested i inner (level + 1) ds)

/-- The declarations and opening braces of nested declarations, the outermost
first. -/
def openings (i : Indent) : (level : Nat) → List String → String
  | _, [] => ""
  | level, d :: ds => lineText i level d ++ openLine i level ++ openings i (level + 1) ds

/-- **Closing all that is open closes every block at its own level.** Opening
declarations one after the other, writing the inner text and closing all blocks
gives the nested form, and then the braces of the blocks around it. -/
theorem openings_append_closeLines (i : Indent) (inner : Nat → String) (level : Nat)
    (ds : List String) :
    openings i level ds ++ inner (level + ds.length) ++ closeLines i (level + ds.length) =
      nested i inner level ds ++ closeLines i level := by
  induction ds generalizing level with
  | nil => simp [openings, nested]
  | cons d ds ih =>
    have hlevel : level + (d :: ds).length = level + 1 + ds.length := by
      rw [List.length_cons]
      omega
    -- The block of `d` is opened before all others and closed after them.
    calc openings i level (d :: ds) ++ inner (level + (d :: ds).length) ++
          closeLines i (level + (d :: ds).length)
        = lineText i level d ++ openLine i level ++ (openings i (level + 1) ds ++
            inner (level + 1 + ds.length) ++ closeLines i (level + 1 + ds.length)) := by
          rw [hlevel, openings]
          simp only [String.append_assoc]
      _ = lineText i level d ++ openLine i level ++
            (nested i inner (level + 1) ds ++ closeLines i (level + 1)) := by rw [ih]
      _ = nested i inner level (d :: ds) ++ closeLines i level := by
          rw [nested, block, closeLines]
          simp only [String.append_assoc]

/-- The last of some closing braces is that of the outermost block, with nothing
behind it. -/
theorem closeLines_succ_eq_append_brace (i : Indent) (level : Nat) :
    ∃ s, closeLines i (level + 1) = s ++ "\x7d" := by
  induction level with
  | zero => exact ⟨"", by simp [closeLines, closeLine]⟩
  | succ level ih =>
    obtain ⟨s, hs⟩ := ih
    exact ⟨closeLine i (level + 1) ++ s, by rw [closeLines, hs, String.append_assoc]⟩

/-- Nested blocks, with the braces of the blocks around them, end in a brace as
well. -/
theorem nested_eq_append_brace (i : Indent) (inner : Nat → String) (level : Nat) (ds : List String)
    (hinner : ∀ level, ∃ head body, inner level = block i level head body) :
    ∃ s, nested i inner level ds ++ closeLines i level = s ++ "\x7d" := by
  cases level with
  | zero =>
    rw [closeLines, String.append_empty]
    cases ds with
    | nil =>
      obtain ⟨head, body, hblock⟩ := hinner 0
      rw [nested, hblock]
      exact ⟨_, rfl⟩
    | cons d ds => exact ⟨_, rfl⟩
  | succ level =>
    obtain ⟨s, hs⟩ := closeLines_succ_eq_append_brace i level
    exact ⟨nested i inner (level + 1) ds ++ s, by rw [hs, String.append_assoc]⟩

end Layout

/-! ### What the operations of a writer write -/

namespace Writer

open Layout

theorem openBlock_eq (w : Writer) :
    w.openBlock = { w.put (openLine w.indent w.level) with level := w.level + 1 } := rfl

theorem closingBrace_eq (w : Writer) : w.closingBrace = w.put (closeLine w.indent w.level) := by
  rw [closingBrace]
  cases hlevel : w.level with
  | zero => rw [if_pos rfl, closeLine]
  | succ level => rw [if_neg (Nat.succ_ne_zero level), charLine, closeLine, hlevel]

theorem lines_eq_put (w : Writer) (ls : List String) :
    w.lines ls = w.put (linesText w.indent w.level ls) := by
  induction ls generalizing w with
  | nil => simp [lines, linesText, put]
  | cons l ls ih =>
    change (w.line l).lines ls = _
    rw [ih]
    simp [linesText, put, line, String.append_assoc]

theorem lines_append (w : Writer) (ls ls' : List String) :
    w.lines (ls ++ ls') = (w.lines ls).lines ls' := by
  rw [lines, List.foldl_append]
  rfl

theorem level_lines (w : Writer) (ls : List String) : (w.lines ls).level = w.level := by
  rw [lines_eq_put, level_put]

theorem indent_lines (w : Writer) (ls : List String) : (w.lines ls).indent = w.indent := by
  rw [lines_eq_put, indent_put]

/-- **A block of lines**: a line, the block that it opens, the lines in it and
its end. Closing it cannot fail. -/
theorem closeBlock_eq_block (w : Writer) (head : String) (ls : List String) :
    ((w.line head).openBlock.lines ls).closeBlock =
      .ok (w.put (block w.indent w.level (lineText w.indent w.level head)
        (linesText w.indent (w.level + 1) ls))) := by
  have hlevel : ((w.line head).openBlock.lines ls).level = w.level + 1 := level_lines _ ls
  rw [closeBlock, hlevel]
  change Except.ok (closingBrace { (w.line head).openBlock.lines ls with level := w.level }) = _
  rw [closingBrace_eq, lines_eq_put]
  simp [put, line, openBlock_eq, block, String.append_assoc]

theorem closeBlocks_eq (n : Nat) (w : Writer) (h : w.level = n) :
    closeBlocks n w = { w.put (closeLines w.indent n) with level := 0 } := by
  induction n generalizing w with
  | zero =>
    cases w
    simp_all [closeBlocks, closeLines, put]
  | succ n ih =>
    rw [closeBlocks, ih _ (by rw [closingBrace_eq, level_put]), closingBrace_eq]
    simp [closeLines, put, String.append_assoc]

/-- **Closing every block** is putting the braces of all of them behind the
text. -/
theorem closeAll_eq (w : Writer) :
    w.closeAll = { w.put (closeLines w.indent w.level) with level := 0 } :=
  closeBlocks_eq w.level w rfl

end Writer

end SharpSource
