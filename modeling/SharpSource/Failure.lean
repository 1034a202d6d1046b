import SharpSource.Symbol
import SharpSource.Text.Quoted

/-!
# Failures of writing

What can go wrong while source is written, one constructor for each cause. The
wording of a failure is one function of it, and so is its **class**: bad
arguments, types that have no declaration, emitters without options, and what
no caller should ever hand over, targets without a declaration and indentations
longer than a text can be.
-/

namespace SharpSource

/-- Why source could not be written. -/
inductive Failure where
  /-- An indentation was to be made of a character that is not blank. -/
  | indentNotBlank (c : Char)
  /-- An indentation was to have no characters. -/
  | indentEmpty
  /-- An indentation was to be longer than a text can be. -/
  | indentTooLong
  /-- An indentation level was to be negative. -/
  | negativeLevel (level : Int)
  /-- A block was closed and none was open. -/
  | noOpenBlock
  /-- A using directive was blank. -/
  | blankUsing
  /-- An accessibility has no keyword. -/
  | accessibility (a : Accessibility)
  /-- A kind of types has no keyword. -/
  | typeKind (kind : TypeKind)
  /-- An emitter has no options and may not be given those of the file. -/
  | missingOptions (emitter : String)
  /-- A target has no declaration. -/
  | noDeclarations (target : String)
  deriving DecidableEq, Repr

namespace Failure

/-- The classes of failures. -/
inductive Class where
  | invalidArgument
  | unsupportedKind
  | missingOptions
  | contract
  deriving DecidableEq, Repr

/-- The class of a failure. -/
def toClass : Failure → Class
  | indentNotBlank _ | indentEmpty | negativeLevel _ | noOpenBlock | blankUsing => .invalidArgument
  | accessibility _ | typeKind _ => .unsupportedKind
  | missingOptions _ => .missingOptions
  | indentTooLong | noDeclarations _ => .contract

/-- The wording for an argument that cannot be used. -/
def invalidArgument (argument reason : String) : String :=
  "invalid argument '" ++ argument ++ "': " ++ reason

/-- The wording of a failure. -/
def message : Failure → String
  | indentNotBlank c =>
    invalidArgument "indent_char" (Text.quotedChar c ++ " is not a whitespace character")
  | indentEmpty =>
    invalidArgument "indent_width" "at least one character per indentation level is required"
  | indentTooLong => "capacity overflow"
  | negativeLevel level => invalidArgument "indentation" (toString level ++ " is negative")
  | noOpenBlock => invalidArgument "indentation" "no open block to close"
  | blankUsing => invalidArgument "using_directive" "namespace must not be empty"
  | accessibility a => "unsupported accessibility '" ++ a.name ++ "'"
  | typeKind kind => "unsupported type kind '" ++ kind.name ++ "'"
  | missingOptions emitter =>
    "body emitter '" ++ emitter ++
      "' has no options; set them explicitly or enable option injection"
  | noDeclarations target => "declaration spec for '" ++ target ++ "' has no type declarations"

end Failure

end SharpSource
