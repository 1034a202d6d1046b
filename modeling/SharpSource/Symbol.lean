/-!
# Symbols

The classifications of a symbol that every description of a type or member
uses: how far it is accessible, what kind of type it is, and whether it is one
of the types that the language itself knows.

Each classification has its **names**, as diagnostics write them, and its
**spellings**, as a manifest writes them; the spellings stand in the order in
which a diagnostic lists them.
-/

namespace SharpSource

/-- The value with a given spelling. -/
def ofSpelling? {α : Type} (spellings : List (String × α)) (s : String) : Option α :=
  (spellings.find? (·.1 == s)).map (·.2)

/-! ### Accessibility -/

/-- How far a type or member is accessible. -/
inductive Accessibility where
  | notApplicable
  | privateAccess
  | protectedAndInternal
  | protectedAccess
  | internalAccess
  | protectedOrInternal
  | publicAccess
  deriving DecidableEq, Repr, Inhabited

namespace Accessibility

/-- The name of an accessibility in diagnostics. -/
def name : Accessibility → String
  | notApplicable => "NotApplicable"
  | privateAccess => "Private"
  | protectedAndInternal => "ProtectedAndInternal"
  | protectedAccess => "Protected"
  | internalAccess => "Internal"
  | protectedOrInternal => "ProtectedOrInternal"
  | publicAccess => "Public"

/-- The spellings of an accessibility; the two joint ones also go by their
keywords. -/
def spellings : List (String × Accessibility) := [
  ("not_applicable", notApplicable),
  ("private", privateAccess),
  ("private protected", protectedAndInternal),
  ("protected_and_internal", protectedAndInternal),
  ("protected", protectedAccess),
  ("internal", internalAccess),
  ("protected internal", protectedOrInternal),
  ("protected_or_internal", protectedOrInternal),
  ("public", publicAccess)]

/-- The keywords that declare an accessibility. Two accessibilities have none
that a declaration here can use. -/
def keyword? : Accessibility → Option String
  | publicAccess => some "public"
  | internalAccess => some "internal"
  | protectedAccess => some "protected"
  | privateAccess => some "private"
  | protectedAndInternal => some "private protected"
  | notApplicable | protectedOrInternal => none

end Accessibility

/-! ### Kinds of types -/

/-- What kind of type a type is. Classes, structs, interfaces and enums can be
declared; the other kinds are there to describe types that are only referred
to. -/
inductive TypeKind where
  | unknown
  | arrayType
  | classType
  | delegateType
  | dynamicType
  | enumType
  | errorType
  | interfaceType
  | moduleType
  | pointerType
  | structType
  | typeParameter
  | submission
  | functionPointer
  deriving DecidableEq, Repr, Inhabited

namespace TypeKind

/-- The name of a kind in diagnostics. -/
def name : TypeKind → String
  | unknown => "Unknown"
  | arrayType => "Array"
  | classType => "Class"
  | delegateType => "Delegate"
  | dynamicType => "Dynamic"
  | enumType => "Enum"
  | errorType => "Error"
  | interfaceType => "Interface"
  | moduleType => "Module"
  | pointerType => "Pointer"
  | structType => "Struct"
  | typeParameter => "TypeParameter"
  | submission => "Submission"
  | functionPointer => "FunctionPointer"

/-- The spellings of a kind. -/
def spellings : List (String × TypeKind) := [
  ("unknown", unknown),
  ("array", arrayType),
  ("class", classType),
  ("delegate", delegateType),
  ("dynamic", dynamicType),
  ("enum", enumType),
  ("error", errorType),
  ("interface", interfaceType),
  ("module", moduleType),
  ("pointer", pointerType),
  ("struct", structType),
  ("type_parameter", typeParameter),
  ("submission", submission),
  ("function_pointer", functionPointer)]

/-- Whether the instances of a kind are values. -/
def isValue : TypeKind → Bool
  | structType | enumType | pointerType => true
  | _ => false

/-- The keywords that declare a type of a kind, as a record or not. A record
interface or enum is declared without the mark. -/
def keyword? (kind : TypeKind) (record : Bool) : Option String :=
  match kind with
  | classType => some (if record then "record" else "class")
  | structType => some (if record then "record struct" else "struct")
  | interfaceType => some "interface"
  | enumType => some "enum"
  | _ => none

end TypeKind

/-! ### Special types -/

/-- The types that the language treats in a way of their own; every other type
is `ordinary`. -/
inductive SpecialType where
  | ordinary
  | object
  | void
  | boolean
  | char
  | int8
  | uint8
  | int16
  | uint16
  | int32
  | uint32
  | int64
  | uint64
  | decimal
  | single
  | double
  | string
  | nullable
  deriving DecidableEq, Repr, Inhabited

namespace SpecialType

/-- The name of a special type in diagnostics. -/
def name : SpecialType → String
  | ordinary => "None"
  | object => "Object"
  | void => "Void"
  | boolean => "Boolean"
  | char => "Char"
  | int8 => "SByte"
  | uint8 => "Byte"
  | int16 => "Int16"
  | uint16 => "UInt16"
  | int32 => "Int32"
  | uint32 => "UInt32"
  | int64 => "Int64"
  | uint64 => "UInt64"
  | decimal => "Decimal"
  | single => "Single"
  | double => "Double"
  | string => "String"
  | nullable => "NullableT"

/-- The spellings of a special type. -/
def spellings : List (String × SpecialType) := [
  ("none", ordinary),
  ("object", object),
  ("void", void),
  ("boolean", boolean),
  ("char", char),
  ("s_byte", int8),
  ("byte", uint8),
  ("int16", int16),
  ("u_int16", uint16),
  ("int32", int32),
  ("u_int32", uint32),
  ("int64", int64),
  ("u_int64", uint64),
  ("decimal", decimal),
  ("single", single),
  ("double", double),
  ("string", string),
  ("nullable_t", nullable)]

/-- The special types with a keyword of their own: the type, the keyword, and
the name under which the type is declared. -/
def keywordTable : List (SpecialType × String × String) := [
  (object, "object", "System.Object"),
  (void, "void", "System.Void"),
  (boolean, "bool", "System.Boolean"),
  (char, "char", "System.Char"),
  (int8, "sbyte", "System.SByte"),
  (uint8, "byte", "System.Byte"),
  (int16, "short", "System.Int16"),
  (uint16, "ushort", "System.UInt16"),
  (int32, "int", "System.Int32"),
  (uint32, "uint", "System.UInt32"),
  (int64, "long", "System.Int64"),
  (uint64, "ulong", "System.UInt64"),
  (decimal, "decimal", "System.Decimal"),
  (single, "float", "System.Single"),
  (double, "double", "System.Double"),
  (string, "string", "System.String")]

/-- The keyword of a special type. -/
def keyword? (t : SpecialType) : Option String :=
  (keywordTable.find? (·.1 == t)).map (·.2.1)

/-- The name under which a special type is declared. -/
def metadataName? (t : SpecialType) : Option String :=
  if t = nullable then some "System.Nullable"
  else (keywordTable.find? (·.1 == t)).map (·.2.2)

/-- The special type with a given keyword. -/
def ofKeyword? (keyword : String) : Option SpecialType :=
  (keywordTable.find? (·.2.1 == keyword)).map (·.1)

/-- Whether a special type holds values; `void` counts as one of them. -/
def isValue : SpecialType → Bool
  | ordinary | object | string => false
  | _ => true

end SpecialType

end SharpSource
