import SharpSource.Document.Decode
import SharpSource.Failure
import SharpSource.Identifier

/-!
# Manifest errors

What can be wrong with a manifest, one constructor for each cause. An error is
shown by several functions of it: its message, a code, a hint what to do, and
**labels**, which say something about a span of the manifest.
-/

namespace SharpSource

open Document

/-- What can be wrong with a manifest whose names are all in order. -/
inductive Problem where
  /-- The indentation cannot be made. -/
  | indent (failure : Failure)
  /-- Two entries share a name that is nowhere found in the text. -/
  | duplicate (name : String)
  /-- A namespace is blank. -/
  | emptyNamespace (context : String)
  /-- A type is of a kind that cannot be declared. -/
  | undeclarable (context : String) (kind : TypeKind)
  /-- A type is of a kind that cannot be a record. -/
  | noRecord (context : String) (kind : TypeKind)
  /-- An accessibility has no keyword. -/
  | accessibility (context : String) (a : Accessibility)
  /-- A member has a blank type. -/
  | emptyType (context name : String)
  deriving DecidableEq, Repr

/-- The wording of a problem. -/
def Problem.message : Problem → String
  | indent failure => "invalid [options.indent]: " ++ failure.message
  | duplicate name => "duplicate type '" ++ name ++ "'"
  | emptyNamespace context => context ++ " must not be empty"
  | undeclarable context kind => context ++ " cannot be declared with kind '" ++ kind.name ++ "'"
  | noRecord context kind => context ++ " of kind '" ++ kind.name ++ "' cannot be a record"
  | accessibility context a => context ++ " cannot use accessibility '" ++ a.name ++ "'"
  | emptyType context name => context ++ " '" ++ name ++ "' has an empty type"

/-- Why nothing could be generated from a manifest. -/
inductive ManifestError where
  /-- The manifest could not be read. -/
  | unreadable (path : String)
  /-- The text is no document. -/
  | syntaxError (file : String)
  /-- The document is no manifest. -/
  | badData (file : String) (fault : Fault)
  /-- The manifest asks for something that cannot be. -/
  | problem (file : String) (problem : Problem) (span : Option Span)
  /-- A name is a reserved keyword. -/
  | reservedKeyword (file name context : String) (span : Option Span)
  /-- A name is no identifier. -/
  | badIdentifier (file name context : String) (fault : Identifier.Fault) (span : Option Span)
  /-- Two entries share a name. -/
  | duplicateType (file name : String) (first second : Span)
  /-- A file could not be written. -/
  | emission (target : String) (failure : Failure)
  deriving DecidableEq, Repr

namespace ManifestError

/-- The message of an error. -/
def message : ManifestError → String
  | unreadable path => "failed to read '" ++ path ++ "'"
  | syntaxError _ | badData _ _ => "failed to parse csgen.toml"
  | problem _ p _ => p.message
  | reservedKeyword _ name _ _ => "'" ++ name ++ "' is a C# reserved keyword"
  | badIdentifier _ name context _ _ => "invalid " ++ context ++ " name '" ++ name ++ "'"
  | duplicateType _ name _ _ => "duplicate type '" ++ name ++ "'"
  | emission target _ => "failed to emit '" ++ target ++ "'"

/-- The code of an error. -/
def code? : ManifestError → Option String
  | unreadable _ => none
  | syntaxError _ | badData _ _ => some "csgen::parse_error"
  | problem _ _ _ => some "csgen::validation_error"
  | reservedKeyword _ _ _ _ => some "csgen::reserved_keyword"
  | badIdentifier _ _ _ _ _ => some "csgen::invalid_identifier"
  | duplicateType _ _ _ _ => some "csgen::duplicate_type"
  | emission _ _ => some "csgen::emit_error"

/-- The hint of an error. -/
def help? : ManifestError → Option String
  | unreadable _ => some "pass the manifest location with '--config <path>'"
  | reservedKeyword _ name context _ =>
    some ("rename the " ++ context ++ " '" ++ name ++ "', e.g. '" ++ name ++ "Type'")
  | badIdentifier _ _ _ fault _ =>
    some (fault.reason ++ ". Use only letters, numbers, and underscores, starting with a letter " ++
      "or underscore.")
  | duplicateType _ _ _ _ =>
    some "both types would be written to the same file; rename one of them"
  | syntaxError _ | badData _ _ | problem _ _ _ | emission _ _ => none

/-- The name of the manifest that an error is about, where it is about its
text. -/
def file? : ManifestError → Option String
  | unreadable _ | emission _ _ => none
  | syntaxError file | badData file _ | problem file _ _ | reservedKeyword file _ _ _
  | badIdentifier file _ _ _ _ | duplicateType file _ _ _ => some file

/-- What an error says about spans of the text. -/
def labels : ManifestError → List (String × Span)
  | unreadable _ | syntaxError _ | emission _ _ => []
  | badData _ fault => fault.span.toList.map (("parse error here", ·))
  | problem _ p span => span.toList.map ((p.message, ·))
  | reservedKeyword _ _ _ span => span.toList.map (("reserved keyword used here", ·))
  | badIdentifier _ _ _ _ span => span.toList.map (("invalid identifier", ·))
  | duplicateType _ _ first second =>
    [("first declared here", first), ("declared again here", second)]

/-- The failure of writing that an error came of. -/
def failure? : ManifestError → Option Failure
  | problem _ (.indent failure) _ | emission _ failure => some failure
  | _ => none

/-- Whether an error came of a broken contract, which no report of errors is
made of. -/
def isBroken (e : ManifestError) : Bool :=
  e.failure?.any (·.toClass == .contract)

end ManifestError

end SharpSource
