import SharpSource.Fingerprint
import SharpSource.Symbol
import SharpSource.Text.Basic
import SharpSource.Text.Quoted

/-!
# References to types

A `TypeRef` names a type without describing it: its simple name, the name
qualified from the root of all namespaces, and as much about it as the writer
of a member has to know. Two references are the same type when their qualified
names agree, whatever else they say, so `==` looks at nothing else.

A type written with a suffix (`int?`, `Order[]`) is again a reference:
`TypeRef.withSuffix` extends all three of its names.
-/

namespace SharpSource

/-- The alias of the root of all namespaces. -/
def globalAlias : String := "global::"

/-- A name without one leading alias of the root of all namespaces. -/
def unaliased (name : String) : String :=
  (Text.after? globalAlias name).getD name

/-- The special type declared under a name, with or without the alias in
front. -/
def SpecialType.ofMetadataName? (name : String) : Option SpecialType :=
  let name := unaliased name
  if name = "System.Nullable" then some .nullable
  else (keywordTable.find? (·.2.2 == name)).map (·.1)

/-- A type known by its name. -/
structure TypeRef where
  /-- The simple name, suffixes included. -/
  name : String
  /-- The name qualified from the root of all namespaces. -/
  qualifiedName : String
  /-- Whether instances are values. -/
  isValue : Bool
  /-- The kind of the type. -/
  kind : TypeKind
  /-- Which type of the language it is. -/
  special : SpecialType
  /-- What source writes for the type, when it is neither the keyword nor the
  qualified name. -/
  explicitName : Option String := none
  deriving Repr, Inhabited

namespace TypeRef

/-- Two references are equal when their qualified names are. -/
instance : BEq TypeRef := ⟨fun a b => a.qualifiedName == b.qualifiedName⟩

theorem beq_iff {a b : TypeRef} : (a == b) = true ↔ a.qualifiedName = b.qualifiedName := by
  simp [BEq.beq]

/-- The tokens that a hash of the reference is fed. -/
def fingerprint (t : TypeRef) : List HashToken :=
  [.text t.qualifiedName]

/-! ### The simple name -/

/-- The characters before the first `<`, and those from it on. -/
def cutGenerics (cs : List Char) : List Char × List Char :=
  (cs.takeWhile (· != '<'), cs.dropWhile (· != '<'))

/-- The characters after the last `.`, all of them where there is none. -/
def afterLastDot (cs : List Char) : List Char :=
  (cs.reverse.takeWhile (· != '.')).reverse

/-- The **simple name** of a qualified name: what follows the last `.` that
stands before the first `<`. -/
def simpleName (qualified : String) : String :=
  let (head, generics) := cutGenerics qualified.toList
  String.ofList (afterLastDot head ++ generics)

/-! ### Making references -/

/-- The reference to the type with a qualified name; the alias in front may be
missing. -/
def ofName (qualified : String) (kind : TypeKind) : TypeRef :=
  let bare := unaliased (Text.trim qualified)
  { name := simpleName bare
    qualifiedName := globalAlias ++ bare
    isValue := kind.isValue
    kind
    special := .ordinary }

/-- The reference to a type that source writes exactly as given. -/
def verbatim (name : String) (kind : TypeKind) : TypeRef :=
  { ofName (Text.trim name) kind with explicitName := some (Text.trim name) }

/-- The reference to a type by its simple name and its namespace; a
blank namespace is none. -/
def ofParts (name : String) (ns : Option String) (kind : TypeKind) : TypeRef :=
  match ns.filter (!Text.isBlankText ·) with
  | some ns => ofName (ns ++ "." ++ name) kind
  | none => ofName name kind

/-- The reference as one to a special type; the special types with values make
it a value. -/
def withSpecial (t : TypeRef) (special : SpecialType) : TypeRef :=
  { t with special, isValue := t.isValue || special.isValue }

/-- The reference with another answer to whether instances are values. -/
def withValue (t : TypeRef) (isValue : Bool) : TypeRef :=
  { t with isValue }

/-- The reference to a special type by its keyword. -/
def ofKeyword? (keyword : String) : Option TypeRef := do
  let special ← SpecialType.ofKeyword? keyword
  let metadata ← special.metadataName?
  let kind := if special.isValue then TypeKind.structType else .classType
  return (ofName metadata kind).withSpecial special

/-! ### Reading references -/

/-- What source writes for a type: the name given for it, else the keyword, else
the qualified name. -/
def sourceName (t : TypeRef) : String :=
  t.explicitName.getD (t.special.keyword?.getD t.qualifiedName)

/-- Whether a type has the value `null`: a reference always, a value only when
it is made nullable. -/
def canBeNull (t : TypeRef) : Bool :=
  !t.isValue || t.special == .nullable

/-- A reference in diagnostics. -/
def describe (t : TypeRef) : String :=
  "TypeRef(" ++ Text.quoted t.qualifiedName ++ ")"

/-! ### Suffixes -/

/-- The reference with a suffix of `?` and brackets. Brackets make it an array,
which is a reference; a `?` alone makes a value nullable. -/
def withSuffix (t : TypeRef) (suffix : String) : TypeRef :=
  let suffix := Text.trim suffix
  if suffix = "" then t
  else
    let extended : TypeRef :=
      { t with
        name := t.name ++ suffix
        qualifiedName := t.qualifiedName ++ suffix
        explicitName := some (t.sourceName ++ suffix) }
    if '[' ∈ suffix.toList then
      { extended with kind := .arrayType, isValue := false, special := .ordinary }
    else if t.isValue then
      { extended with special := .nullable }
    else extended

end TypeRef

end SharpSource
