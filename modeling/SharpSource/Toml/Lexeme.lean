import SharpSource.Text.Basic

/-!
# Lexemes of TOML

The smallest pieces of a TOML document: blanks within a line, ends of lines,
comments, digits, and the four shapes of strings. A **reader** takes the
characters that are left of a text, and gives back what it has read and what is
left then, or nothing where the text is not well formed.
-/

namespace SharpSource.Toml

/-- Reads something from the characters that are left. -/
abbrev Reader (α : Type) := List Char → Option (α × List Char)

/-! ### Blanks, lines and comments -/

/-- The blanks within a line. -/
def isSpace (c : Char) : Bool :=
  c == ' ' || c == '\t'

/-- Drops the blanks within a line. -/
def skipSpace (cs : List Char) : List Char :=
  cs.dropWhile isSpace

/-- The characters that may stand as they are within a line: all but the
controls, and the tab. -/
def isInline (c : Char) : Bool :=
  c == '\t' || (0x20 ≤ c.toNat && c.toNat != 0x7f)

/-- Reads the end of a line: a line feed, with a carriage return in front of it
or without. -/
def lineFeed : Reader Unit
  | '\n' :: cs => some ((), cs)
  | '\r' :: '\n' :: cs => some ((), cs)
  | _ => none

/-- Drops a comment, up to the end of the line; the text is left as it is where
no comment starts. -/
def skipComment (cs : List Char) : List Char :=
  match cs with
  | '#' :: cs => cs.dropWhile isInline
  | _ => cs

/-- Reads the rest of a line that has nothing but blanks and a comment left. -/
def lineEnd : Reader Unit := fun cs =>
  match skipComment (skipSpace cs) with
  | [] => some ((), [])
  | cs => lineFeed cs

/-- Drops blanks, comments and ends of lines, as many as there are. The first
argument bounds how many lines are dropped. -/
def skipLines : (fuel : Nat) → List Char → List Char
  | 0, cs => cs
  | fuel + 1, cs =>
    let cs := skipComment (skipSpace cs)
    match lineFeed cs with
    | some (_, rest) => skipLines fuel rest
    | none => cs

/-! ### Digits -/

/-- The value of a digit in a base. -/
def digitIn? (base : Nat) (c : Char) : Option Nat :=
  let value :=
    if c.isDigit then some (c.toNat - '0'.toNat)
    else if 'a' ≤ c ∧ c ≤ 'f' then some (c.toNat - 'a'.toNat + 10)
    else if 'A' ≤ c ∧ c ≤ 'F' then some (c.toNat - 'A'.toNat + 10)
    else none
  value.filter (· < base)

/-- The number with given digits. -/
def ofDigits (base : Nat) (ds : List Nat) : Nat :=
  ds.foldl (fun a d => base * a + d) 0

/-- Reads the number that `n` digits spell. -/
def fixedDigits? (base n : Nat) : Reader Nat := fun cs => do
  if cs.length < n then none
  let ds ← (cs.take n).mapM (digitIn? base)
  some (ofDigits base ds, cs.drop n)

/-! ### Strings -/

/-- Reads a character by its code point in `n` hexadecimal digits. -/
def codePoint (n : Nat) : Reader Char := fun cs => do
  let (code, rest) ← fixedDigits? 16 n cs
  if code.isValidChar then some (Char.ofNat code, rest) else none

/-- Reads an escape, from the character behind the backslash on. -/
def escape : Reader Char
  | 'b' :: cs => some (Char.ofNat 0x8, cs)
  | 't' :: cs => some ('\t', cs)
  | 'n' :: cs => some ('\n', cs)
  | 'f' :: cs => some (Char.ofNat 0xc, cs)
  | 'r' :: cs => some ('\r', cs)
  | 'e' :: cs => some (Char.ofNat 0x1b, cs)
  | '"' :: cs => some ('"', cs)
  | '\\' :: cs => some ('\\', cs)
  | 'x' :: cs => codePoint 2 cs
  | 'u' :: cs => codePoint 4 cs
  | 'U' :: cs => codePoint 8 cs
  | _ => none

/-- Reads one character of a string on one line. -/
def inlineChar : Reader (List Char)
  | c :: cs => if isInline c then some ([c], cs) else none
  | [] => none

/-- Reads one character of a string of several lines. -/
def anyChar : Reader (List Char)
  | '\n' :: cs => some (['\n'], cs)
  | '\r' :: '\n' :: cs => some (['\r', '\n'], cs)
  | cs => inlineChar cs

/-- Reads one character of a string with escapes on one line. -/
def escapedChar : Reader (List Char)
  | '\\' :: cs => (escape cs).map fun r => ([r.1], r.2)
  | cs => inlineChar cs

/-- Drops blanks and ends of lines, as many as there are. -/
def skipFolded : List Char → List Char
  | '\n' :: cs => skipFolded cs
  | '\r' :: '\n' :: cs => skipFolded cs
  | c :: cs => if isSpace c then skipFolded cs else c :: cs
  | [] => []

/-- Reads one character of a string with escapes of several lines. A backslash
at the end of a line takes the end of the line away, and the blanks and lines
that follow. -/
def escapedAnyChar : Reader (List Char)
  | '\\' :: cs =>
    match lineFeed (skipSpace cs) with
    | some (_, rest) => some ([], skipFolded rest)
    | none => (escape cs).map fun r => ([r.1], r.2)
  | cs => anyChar cs

/-- Reads the closing quote of a string on one line. -/
def closeOne (quote : Char) : Reader (List Char)
  | c :: cs => if c = quote then some ([], cs) else none
  | [] => none

/-- Reads the three closing quotes of a string of several lines. Up to two
quotes in front of them belong to the string. -/
def closeThree (quote : Char) : Reader (List Char) := fun cs =>
  let n := min 5 (cs.takeWhile (· == quote)).length
  if n < 3 then none else some (List.replicate (n - 3) quote, cs.drop n)

/-- Reads pieces of a string until it is closed. The first argument bounds how
many there are. -/
def piecesUntil (close piece : Reader (List Char)) : (fuel : Nat) → Reader (List Char)
  | 0, _ => none
  | fuel + 1, cs =>
    match close cs with
    | some r => some r
    | none => do
      let (here, rest) ← piece cs
      let (more, rest) ← piecesUntil close piece fuel rest
      some (here ++ more, rest)

/-- Reads the rest of a string behind its opening quotes. -/
def stringRest (close piece : Reader (List Char)) : Reader String := fun cs =>
  (piecesUntil close piece (cs.length + 1) cs).map fun r => (String.ofList r.1, r.2)

/-- Drops a line feed that stands at the start of a string of several lines. -/
def dropFirstLine (cs : List Char) : List Char :=
  match lineFeed cs with
  | some (_, rest) => rest
  | none => cs

/-- Reads a string on one line. -/
def shortString : Reader String
  | '"' :: cs => stringRest (closeOne '"') escapedChar cs
  | '\'' :: cs => stringRest (closeOne '\'') inlineChar cs
  | _ => none

/-- Reads a string of any shape. -/
def string : Reader String
  | '"' :: '"' :: '"' :: cs => stringRest (closeThree '"') escapedAnyChar (dropFirstLine cs)
  | '\'' :: '\'' :: '\'' :: cs => stringRest (closeThree '\'') anyChar (dropFirstLine cs)
  | cs => shortString cs

end SharpSource.Toml
