import SharpSource.Document.Decimal
import SharpSource.Text.Quoted

/-!
# Documents

A document is a tree of values, each of which knows the **span** of text that
it was read from: from its first byte up to, and not including, its last. Keys
have spans of their own, so a diagnostic can point at a key or at its value.
-/

namespace SharpSource

/-- A stretch of a text, in bytes. -/
structure Span where
  /-- The first byte. -/
  start : Nat
  /-- The byte after the last. -/
  stop : Nat
  deriving DecidableEq, Repr, Inhabited

/-- The number of bytes of a span. -/
def Span.length (s : Span) : Nat :=
  s.stop - s.start

namespace Document

/-- Something read from a span of text. -/
structure Located (α : Type) where
  span : Span
  value : α
  deriving DecidableEq, Repr, Inhabited

/-- A key with what stands under it. -/
structure Entry (α : Type) where
  key : Located String
  item : Located α
  deriving Repr, Inhabited

/-- A value of a document. -/
inductive Value where
  | null
  | boolean (b : Bool)
  | integer (i : Int)
  /-- An integer whose digits are none of its base, or that has none. -/
  | illegible
  | decimal (d : Decimal)
  | text (s : String)
  /-- A date, a time, or both, as written. -/
  | moment (s : String)
  | list (items : List (Located Value))
  | table (entries : List (Entry Value))
  deriving Repr, Inhabited

namespace Value

/-- Whether an integer does not fit into sixty-four bits, with a sign or
without. -/
def isOversized (i : Int) : Bool :=
  i < -9223372036854775808 || 18446744073709551616 ≤ i

/-- Whether an integer does not fit into a hundred and twenty-eight bits, with a
sign or without. -/
def isOverflowing (i : Int) : Bool :=
  i < -170141183460469231731687303715884105728 || 340282366920938463463374607431768211456 ≤ i

/-- Whether a value is a number beyond any that is read. -/
def isBeyond : Value → Bool
  | integer i => isOversized i
  | illegible => true
  | decimal d => d.isOverflowing
  | _ => false

/-- The key under which a moment stands when it is taken for a table. -/
def momentKey : String := "$__toml_private_datetime"

end Value

/-! ### What a value is found to be -/

/-- What diagnostics tell of a value. -/
inductive Found where
  | null
  | boolean (b : Bool)
  | integer (i : Int)
  | decimal (d : Decimal)
  | text (s : String)
  | sequence
  | map
  deriving DecidableEq, Repr

/-- What a value is found to be; nothing can be told of an integer that is not
legible. -/
def Value.found? : Value → Option Found
  | null => some .null
  | boolean b => some (.boolean b)
  | integer i => some (.integer i)
  | illegible => none
  | decimal d => some (.decimal d)
  | text s => some (.text s)
  | list _ => some .sequence
  | moment _ | table _ => some .map

/-- An integer in diagnostics, which tell when it does not fit into sixty-four
bits. -/
def describeInteger (i : Int) : String :=
  "integer `" ++ toString i ++ "`" ++
    (if !Value.isOversized i then ""
      else if i < 170141183460469231731687303715884105728 then " as i128"
      else " as u128")

/-- The wording of what was found, with numbers in a layout. -/
def Found.describe (l : Decimal.Layout) : Found → String
  | null => "null"
  | boolean b => "boolean `" ++ (if b then "true" else "false") ++ "`"
  | integer i => describeInteger i
  | decimal d => "floating point `" ++ d.describe l ++ "`"
  | text s => "string " ++ Text.quoted s
  | sequence => "sequence"
  | map => "map"

/-! ### Order of keys -/

/-- Entries in ascending order of their keys, which is the order that the
entries of a table stand in. -/
def sortEntries (entries : List (Entry Value)) : List (Entry Value) :=
  entries.mergeSort fun a b => !decide (b.key.value < a.key.value)

end Document

end SharpSource
