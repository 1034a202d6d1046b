import SharpSource.Document.Value
import SharpSource.Text.Basic

/-!
# Finding names in a manifest

Once a manifest has been read, its names no longer know where they came from,
so a diagnostic looks for a name in the text: first where it is given as a
name, then between any two quotes, double ones before single ones.
-/

namespace SharpSource

namespace Location

/-- The quotes that a name may stand between. -/
def quotes : List String := ["\"", "'"]

/-- The first place where a text has `lead`, a quote, a name and the same
quote. -/
def findAfter? (lead source name quote : String) : Option Span :=
  (Text.offsetOf? (lead ++ quote ++ name ++ quote) source).map fun offset =>
    let start := offset + lead.utf8ByteSize + quote.utf8ByteSize
    ⟨start, start + name.utf8ByteSize⟩

/-- The place where a text gives a name. -/
def find? (source name : String) : Option Span :=
  (quotes.findSome? (findAfter? "name = " source name)).or
    (quotes.findSome? (findAfter? "" source name))

/-- All places where a text gives a name between double quotes. -/
def findAll (source name : String) : List Span :=
  (Text.offsetsOf ("name = \"" ++ name ++ "\"") source).map fun offset =>
    ⟨offset + 8, offset + 8 + name.utf8ByteSize⟩

end Location

/-- Where in a manifest something is checked: the text with its name, and the
names of the entries around, the outermost first. -/
structure Scope where
  source : String
  file : String
  path : List String := []
  deriving DecidableEq, Repr

namespace Scope

/-- The scope inside a named entry. -/
def push (s : Scope) (name : String) : Scope :=
  { s with path := s.path ++ [name] }

/-- The names around, joined by dots. -/
def pathText (s : Scope) : String :=
  ".".intercalate s.path

/-- What something is called in a scope: its sort, and where it is. -/
def contextOf (s : Scope) (sort : String) : String :=
  if s.path.isEmpty then sort else sort ++ " in '" ++ s.pathText ++ "'"

/-- The place where the text gives a name. -/
def find? (s : Scope) (name : String) : Option Span :=
  Location.find? s.source name

end Scope

end SharpSource
