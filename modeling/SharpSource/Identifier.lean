import SharpSource.Text.Letter

/-!
# Identifiers

The names that a C# file can declare. A **reserved keyword** is no name unless
it is written with an `@` in front; the contextual keywords (`var`, `record`)
are names like any other. Apart from that a name starts with a letter or an
underscore and goes on with letters, numerals and underscores.
-/

namespace SharpSource.Identifier

/-- The reserved keywords of C#. -/
def keywords : List String := [
  "abstract", "as", "base", "bool", "break", "byte", "case", "catch", "char", "checked",
  "class", "const", "continue", "decimal", "default", "delegate", "do", "double", "else",
  "enum", "event", "explicit", "extern", "false", "finally", "fixed", "float", "for",
  "foreach", "goto", "if", "implicit", "in", "int", "interface", "internal", "is", "lock",
  "long", "namespace", "new", "null", "object", "operator", "out", "override", "params",
  "private", "protected", "public", "readonly", "ref", "return", "sbyte", "sealed", "short",
  "sizeof", "stackalloc", "static", "string", "struct", "switch", "this", "throw", "true",
  "try", "typeof", "uint", "ulong", "unchecked", "unsafe", "ushort", "using", "virtual",
  "void", "volatile", "while"]

/-- Whether a name is a reserved keyword. -/
def isKeyword (name : String) : Bool :=
  keywords.contains name

/-- The **token** that stands for a name in source: a reserved keyword takes an
`@` in front. -/
def escape (name : String) : String :=
  if isKeyword name then "@" ++ name else name

/-- What can be wrong with the characters of a name. -/
inductive Fault where
  /-- The first character is no letter and no underscore. -/
  | start
  /-- There is no character. -/
  | empty
  /-- A later character is no letter, no numeral and no underscore. -/
  | character
  deriving DecidableEq, Repr

/-- The wording of a fault. -/
def Fault.reason : Fault → String
  | .start => "name must start with a letter or underscore"
  | .empty => "name cannot be empty"
  | .character => "name must contain only letters, numbers, and underscores"

/-- The characters that a name may start with. -/
def isStart (c : Char) : Bool :=
  Text.isLetter c || c == '_'

/-- The characters that a name may go on with. -/
def isContinue (c : Char) : Bool :=
  Text.isLetterOrNumeral c || c == '_'

/-- The first fault in the characters of a name, none when they spell an
identifier. -/
def fault? (name : String) : Option Fault :=
  match name.toList with
  | [] => some .empty
  | c :: cs =>
    if !isStart c then some .start
    else if cs.all isContinue then none
    else some .character

end SharpSource.Identifier
