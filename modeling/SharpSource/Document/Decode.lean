import SharpSource.Document.Value
import SharpSource.Symbol

/-!
# Reading values out of documents

A **decoder** turns a value of a document into a value of some type, or reports
what is wrong and where. A fault points at the innermost value that it was
found in, unless it already points at a key.

Records are read by their fields. From a table, the entries are read as they
stand, in ascending order of their keys, so of several faults that of the
smallest key is reported; fields that are missing are reported after that, in
the order of the fields. A record can also be written as a list of its fields in
order.
-/

namespace SharpSource.Document

/-! ### Faults -/

/-- What can be wrong with a value. -/
inductive Cause where
  /-- An integer is too large for any type, or not legible. -/
  | integerOverflow
  /-- A number with a point is too large for any type. -/
  | decimalOverflow
  /-- A value of another type was expected. -/
  | wrongType (found : Found) (expected : String)
  /-- The type is right and the value is not. -/
  | wrongValue (found : Found) (expected : String)
  /-- A list has fewer items than expected. -/
  | tooShort (length : Nat) (expected : String)
  /-- A list goes on after the items that are read. -/
  | tooLong (length read : Nat)
  /-- A word is none of those allowed. -/
  | unknownVariant (word : String) (allowed : List String)
  /-- A key is none of those allowed. -/
  | unknownField (key : String) (allowed : List String)
  /-- A key is missing. -/
  | missingField (key : String)
  /-- A value has the wrong shape for a word. -/
  | notAWord (reason : String)
  deriving DecidableEq, Repr

/-- A list of alternatives in diagnostics. -/
def alternatives (names : List String) : String :=
  let quoted := names.map fun n => "`" ++ n ++ "`"
  match quoted with
  | [a] => a
  | [a, b] => a ++ " or " ++ b
  | _ => "one of " ++ ", ".intercalate quoted

/-- A number of elements in diagnostics. -/
def elements (n : Nat) : String :=
  toString n ++ (if n = 1 then " element" else " elements")

/-- How causes are worded. -/
structure Wording where
  /-- How numbers are written. -/
  layout : Decimal.Layout := .positional
  /-- What is expected of a list that is too long, by the number of items that
  are read. -/
  expectedItems : Nat → String := fun read => elements read ++ " in sequence"

/-- The text of a cause. -/
def Cause.message (c : Cause) (w : Wording := {}) : String :=
  match c with
  | integerOverflow => "integer number overflowed"
  | decimalOverflow => "floating-point number overflowed"
  | wrongType found expected =>
    "invalid type: " ++ found.describe w.layout ++ ", expected " ++ expected
  | wrongValue found expected =>
    "invalid value: " ++ found.describe w.layout ++ ", expected " ++ expected
  | tooShort length expected =>
    "invalid length " ++ toString length ++ ", expected " ++ expected
  | tooLong length read =>
    "invalid length " ++ toString length ++ ", expected " ++ w.expectedItems read
  | unknownVariant word allowed =>
    "unknown variant `" ++ word ++ "`, expected " ++ alternatives allowed
  | unknownField key allowed => "unknown field `" ++ key ++ "`, expected " ++ alternatives allowed
  | missingField key => "missing field `" ++ key ++ "`"
  | notAWord reason => reason

/-- A cause, and the span it is found at once that is known. -/
structure Fault where
  cause : Cause
  span : Option Span := none
  deriving DecidableEq, Repr

/-- A fault that points at `span` unless it points somewhere already. -/
def Fault.at (f : Fault) (span : Span) : Fault :=
  { f with span := f.span.or span }

/-- A fault that points nowhere. -/
def Fault.nowhere (f : Fault) : Fault :=
  { f with span := none }

/-- A result whose fault points at `span` unless it points somewhere already. -/
def locate {α : Type} (span : Span) (r : Except Fault α) : Except Fault α :=
  r.mapError (·.at span)

/-- Reads a value of some type. -/
abbrev Decoder (α : Type) := Located Value → Except Fault α

/-- What is wrong with a value where something else was expected; a number that
is too large for any type comes first. -/
def Cause.ofValue (v : Value) (expected : String) : Cause :=
  match v.found? with
  | none => .integerOverflow
  | some (.integer i) =>
    if Value.isOverflowing i then .integerOverflow else .wrongType (.integer i) expected
  | some (.decimal d) =>
    if d.isOverflowing then .decimalOverflow else .wrongType (.decimal d) expected
  | some found => .wrongType found expected

/-- The fault of a value that has the wrong type. -/
def wrong {α : Type} (v : Located Value) (expected : String) : Except Fault α :=
  .error ⟨.ofValue v.value expected, some v.span⟩

/-! ### Simple values -/

/-- Accepts every value. -/
def anything : Decoder Unit := fun _ => .ok ()

/-- Reads a text. -/
def readText : Decoder String := fun v =>
  match v.value with
  | .text s => .ok s
  | _ => wrong v "a string"

/-- Reads a flag. -/
def readFlag : Decoder Bool := fun v =>
  match v.value with
  | .boolean b => .ok b
  | _ => wrong v "a boolean"

/-- Reads a number of things. -/
def readCount : Decoder Nat := fun v =>
  match v.value with
  | .integer i =>
    if Value.isOversized i then wrong v "usize"
    else if i < 0 then .error ⟨.wrongValue (.integer i) "usize", some v.span⟩
    else .ok i.toNat
  | _ => wrong v "usize"

/-- Reads a value that may be absent. -/
def readOptional {α : Type} (d : Decoder α) : Decoder (Option α) := fun v =>
  match v.value with
  | .null => .ok none
  | _ => some <$> d v

/-- Reads a list. -/
def readList {α : Type} (d : Decoder α) : Decoder (List α) := fun v =>
  match v.value with
  | .list items => items.mapM d
  | _ => wrong v "a sequence"

/-- The value of a word, among those with a spelling. -/
def wordOf {α : Type} (spellings : List (String × α)) (word : String) : Except Fault α :=
  match ofSpelling? spellings word with
  | some a => .ok a
  | none => .error ⟨.unknownVariant word (spellings.map (·.1)), none⟩

/-- Reads a word that stands under nothing: under an empty list, an empty
table. -/
def nothingUnder {α : Type} (a : α) (v : Located Value) : Except Fault α :=
  match v.value with
  | .list [] | .table [] => .ok a
  | .list _ => .error ⟨.notAWord "expected empty array", some v.span⟩
  | .table _ => .error ⟨.notAWord "expected empty table", some v.span⟩
  | .text _ => .error ⟨.notAWord "expected table, found string", some v.span⟩
  | .integer _ | .illegible =>
    .error ⟨.notAWord "expected table, found integer", some v.span⟩
  | .decimal _ => .error ⟨.notAWord "expected table, found float", some v.span⟩
  | .boolean _ => .error ⟨.notAWord "expected table, found boolean", some v.span⟩
  | .moment _ => .error ⟨.notAWord "expected table, found datetime", some v.span⟩
  | .null => .error ⟨.notAWord "expected table, found null", some v.span⟩

/-- Reads one of several words. A word may also be the only key of a table. -/
def readWord {α : Type} (spellings : List (String × α)) : Decoder α := fun v =>
  locate v.span <|
    match v.value with
    | .text s => wordOf spellings s
    | .table [e] => do
      let a ← locate e.key.span (wordOf spellings e.key.value)
      nothingUnder a e.item
    | .table [] => .error ⟨.notAWord "wanted exactly 1 element, found 0 elements", none⟩
    | .table _ => .error ⟨.notAWord "wanted exactly 1 element, more than 1 element", none⟩
    | _ => .error ⟨.notAWord "wanted string or table", none⟩

mutual

/-- The first number in a value that is beyond any that is read. -/
def beyond? : Value → Option (Located Value)
  | .list items => beyondIn? items
  | .table entries => beyondUnder? entries
  | _ => none

/-- The first such number among the items of a list. -/
def beyondIn? : List (Located Value) → Option (Located Value)
  | [] => none
  | ⟨span, v⟩ :: rest =>
    if v.isBeyond then some ⟨span, v⟩ else (beyond? v).or (beyondIn? rest)

/-- The first such number among the entries of a table. -/
def beyondUnder? : List (Entry Value) → Option (Located Value)
  | [] => none
  | ⟨_, ⟨span, v⟩⟩ :: rest =>
    if v.isBeyond then some ⟨span, v⟩ else (beyond? v).or (beyondUnder? rest)

end

/-- Accepts every value whose numbers can all be read. -/
def anythingSized : Decoder Unit := fun v =>
  match beyondIn? [v] with
  | some i => wrong i "any value"
  | none => .ok ()

/-! ### Records -/

/-- A field of a record: how it is read into a record, and where it may not be
missing. -/
structure Field (ρ : Type) where
  name : String
  read : Located Value → ρ → Except Fault ρ
  /-- Whether a table must have the field. -/
  required : Bool := false
  /-- Whether a list must reach the field. -/
  listed : Bool := true

/-- A field that is read by a decoder and then set. -/
def Field.of {ρ α : Type} (name : String) (d : Decoder α) (set : α → ρ → ρ)
    (required : Bool := false) (listed : Bool := false) : Field ρ where
  name := name
  read v r := (set · r) <$> d v
  required := required
  listed := required || listed

/-- A type of records. -/
structure Schema (ρ : Type) where
  /-- The name of the type in diagnostics. -/
  name : String
  /-- The fields in order. -/
  fields : List (Field ρ)
  /-- The record whose fields are those that a document may leave out. -/
  blank : ρ
  /-- How the values under other keys are looked at; none when there may be no
  other keys. -/
  others : Option (Decoder Unit) := none
  /-- Whether a list may not go on after the last field. -/
  exactList : Bool := false

namespace Schema

variable {ρ : Type}

/-- The names of the fields. -/
def names (s : Schema ρ) : List String :=
  s.fields.map (·.name)

/-- The field with a name. -/
def field? (s : Schema ρ) (name : String) : Option (Field ρ) :=
  s.fields.find? (·.name == name)

/-- Reads one entry of a table into a record. -/
def readEntry (s : Schema ρ) (r : ρ) (e : Entry Value) : Except Fault ρ :=
  match s.field? e.key.value with
  | some f => locate e.item.span (f.read e.item r)
  | none =>
    match s.others with
    | some look => (fun _ => r) <$> look e.item
    | none => .error ⟨.unknownField e.key.value s.names, some e.key.span⟩

/-- The first field that a table must have and does not. -/
def missing? (s : Schema ρ) (entries : List (Entry Value)) : Option (Field ρ) :=
  s.fields.find? fun f => f.required && !(entries.any (·.key.value == f.name))

/-- Reads a record from the entries of a table. -/
def ofEntries (s : Schema ρ) (entries : List (Entry Value)) : Except Fault ρ := do
  let r ← entries.foldlM s.readEntry s.blank
  match s.missing? entries with
  | some f => .error ⟨.missingField f.name, none⟩
  | none => return r

/-- Reads a record from the items of a list; `place` counts the fields before
these. -/
def ofItems (s : Schema ρ) : (place : Nat) → List (Field ρ) → List (Located Value) → ρ →
    Except Fault ρ
  | place, [], items, r =>
    if s.exactList && !items.isEmpty then
      .error ⟨.tooLong (place + items.length) place, none⟩
    else .ok r
  | place, f :: fs, [], r =>
    if f.listed then
      let expected := "struct " ++ s.name ++ " with " ++ elements s.fields.length
      .error ⟨.tooShort place expected, none⟩
    else ofItems s (place + 1) fs [] r
  | place, f :: fs, v :: vs, r => do
    let r ← locate v.span (f.read v r)
    ofItems s (place + 1) fs vs r

/-- Reads a record. -/
def decode (s : Schema ρ) : Decoder ρ := fun v =>
  locate v.span <|
    match v.value with
    | .table entries => s.ofEntries entries
    | .moment m => s.ofEntries [⟨⟨v.span, Value.momentKey⟩, ⟨v.span, .text m⟩⟩]
    | .list items => s.ofItems 0 s.fields items s.blank
    | _ => wrong v ("struct " ++ s.name)

end Schema

end SharpSource.Document
