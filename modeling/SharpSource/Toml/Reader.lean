import SharpSource.Toml.Draft
import SharpSource.Toml.Lexeme
import SharpSource.Toml.Scalar

/-!
# Reading TOML

A document is a sequence of lines: headers, keys with values, and lines with
nothing but a comment. Keys may have dots, headers open tables, and a value may
go on over several lines inside brackets. `Toml.read?` gives the table that a
whole document stands for, or nothing where it is not well formed.

Positions are counted from the end: a reader knows the length of the whole text
and sees what is left of it.
-/

namespace SharpSource.Toml

open Document

/-- How deep arrays and inline tables may nest, and how many parts a key may
have. -/
def maxDepth : Nat := 80

/-- The span from one place of a text to a later one, each given by what is left
there of a text of `total` bytes. -/
def spanBetween (total : Nat) (start stop : List Char) : Span :=
  ⟨total - Text.byteLength start, total - Text.byteLength stop⟩

/-! ### Keys -/

/-- The characters of a key without quotes. -/
def isBare (c : Char) : Bool :=
  c.isAlphanum || c == '_' || c == '-'

/-- Reads one part of a key. -/
def keyPart (total : Nat) : Reader (Located String) := fun cs =>
  match cs.takeWhile isBare with
  | [] => (shortString cs).map fun r => (⟨spanBetween total cs r.2, r.1⟩, r.2)
  | bare =>
    let rest := cs.dropWhile isBare
    some (⟨spanBetween total cs rest, String.ofList bare⟩, rest)

/-- Reads a key: its parts but for the last, and the last. The blanks behind it
are read too. The first number bounds how many parts there are. -/
def dottedKey (total : Nat) : (parts : Nat) → Reader (List (Located String) × Located String)
  | 0, _ => none
  | parts + 1, cs => do
    let (part, rest) ← keyPart total (skipSpace cs)
    match skipSpace rest with
    | '.' :: rest => do
      let ((path, key), rest) ← dottedKey total parts rest
      some ((part :: path, key), rest)
    | rest => some (([], part), rest)

/-- Reads a key of at most `maxDepth` parts. -/
def key (total : Nat) : Reader (List (Located String) × Located String) :=
  dottedKey total maxDepth

/-! ### Values -/

mutual

/-- Reads a value, inside of which `depth` brackets may still nest. -/
def value (total : Nat) : (fuel depth : Nat) → Reader (Located Value)
  | 0, _, _ => none
  | fuel + 1, depth, cs =>
    match cs with
    | '[' :: inner =>
      match depth with
      | 0 => none
      | depth + 1 => do
        let (items, rest) ← arrayItems total fuel depth inner
        some (⟨spanBetween total cs rest, .list items⟩, rest)
    | '\x7b' :: inner =>
      match depth with
      | 0 => none
      | depth + 1 => do
        let (fields, rest) ← inlineFields total fuel depth [] inner
        some (⟨spanBetween total cs rest, fields.toValue⟩, rest)
    | c :: _ =>
      if c = '"' ∨ c = '\'' then do
        let (s, rest) ← string cs
        some (⟨spanBetween total cs rest, .text s⟩, rest)
      else do
        let (text, rest) := cutScalar cs
        let v ← scalar? text
        some (⟨spanBetween total cs rest, v⟩, rest)
    | [] => none

/-- Reads the items of an array up to its closing bracket. A comma may stand
behind the last. -/
def arrayItems (total : Nat) : (fuel depth : Nat) → Reader (List (Located Value))
  | 0, _, _ => none
  | fuel + 1, depth, cs =>
    let cs := skipLines cs.length cs
    match cs with
    | ']' :: rest => some ([], rest)
    | _ => do
      let (v, rest) ← value total fuel depth cs
      match skipLines rest.length rest with
      | ',' :: rest => do
        let (vs, rest) ← arrayItems total fuel depth rest
        some (v :: vs, rest)
      | ']' :: rest => some ([v], rest)
      | _ => none

/-- Reads the keys and values of an inline table up to its closing brace, and
adds them to those read before. A comma may stand behind the last, and lines
may end anywhere but within a key. -/
def inlineFields (total : Nat) : (fuel depth : Nat) → Fields → Reader Fields
  | 0, _, _, _ => none
  | fuel + 1, depth, fields, cs =>
    let cs := skipLines cs.length cs
    match cs with
    | '\x7d' :: rest => some (fields, rest)
    | _ => do
      let ((path, last), rest) ← key total cs
      match skipLines rest.length rest with
      | '=' :: rest => do
        let (v, rest) ← value total fuel depth (skipLines rest.length rest)
        let fields ← fields.insert last v path
        match skipLines rest.length rest with
        | ',' :: rest => inlineFields total fuel depth fields rest
        | '\x7d' :: rest => some (fields, rest)
        | _ => none
      | _ => none

end

/-! ### Lines -/

/-- The state between two lines: the table so far, and the path to the table
that is open. -/
structure Progress where
  fields : Fields := []
  current : List (Located String) := []

/-- Reads the header of a table, or of another table of an array, and opens the
table. -/
def header (total : Nat) (p : Progress) : Reader Progress := fun cs =>
  match cs with
  | '[' :: '[' :: inner => do
    let ((path, last), rest) ← key total inner
    match rest with
    | ']' :: ']' :: rest => do
      let fields ← p.fields.openItem (spanBetween total cs rest) last path
      some (⟨fields, path ++ [last]⟩, rest)
    | _ => none
  | '[' :: inner => do
    let ((path, last), rest) ← key total inner
    match rest with
    | ']' :: rest => do
      let fields ← p.fields.openTable (spanBetween total cs rest) last path
      some (⟨fields, path ++ [last]⟩, rest)
    | _ => none
  | _ => none

/-- Reads a key and its value, and adds them to the table that is open. -/
def assignment (total : Nat) (p : Progress) : Reader Progress := fun cs => do
  let ((path, last), rest) ← key total cs
  match rest with
  | '=' :: rest => do
    let (v, rest) ← value total (2 * rest.length + 2) maxDepth (skipSpace rest)
    let fields ← p.fields.descend (·.insert last v path) p.current
    some ({ p with fields }, rest)
  | _ => none

/-- Reads one line. -/
def line (total : Nat) (p : Progress) : Reader Progress := fun cs => do
  let cs := skipSpace cs
  let (p, rest) ←
    match cs with
    | '[' :: _ => header total p cs
    | [] | '#' :: _ | '\n' :: _ | '\r' :: _ => some (p, cs)
    | _ => assignment total p cs
  let (_, rest) ← lineEnd rest
  some (p, rest)

/-- Reads all lines that are left. -/
def allLines (total : Nat) : (fuel : Nat) → Progress → List Char → Option Progress
  | _, p, [] => some p
  | 0, _, _ => none
  | fuel + 1, p, cs => do
    let (p, rest) ← line total p cs
    allLines total fuel p rest

/-- A text without the mark of its byte order. -/
def dropByteOrderMark (cs : List Char) : List Char :=
  match cs with
  | c :: rest => if c.toNat = 0xfeff then rest else cs
  | [] => []

/-- The table that a document stands for. -/
def read? (source : String) : Option (Located Value) := do
  let total := source.utf8ByteSize
  let cs := dropByteOrderMark source.toList
  let p ← allLines total (cs.length + 1) {} cs
  some ⟨⟨0, total⟩, p.fields.toValue⟩

end SharpSource.Toml
