import SharpSource.Options.Basic
import SharpSource.Text.Basic
import SharpSource.Text.CaseMap

/-!
# Manifests

A manifest says which types to generate and how. It has a table for the
assembly that the files are marked with, a table of options, and a list of
entries, one for each type: its name and kind, its modifiers, the types around
it, its members, and hand-written snippets for its body.
-/

namespace SharpSource

/-! ### Words -/

/-- A modifier of a type. -/
inductive Modifier where
  | static
  | abstract
  | sealed
  | readonly
  | partialType
  deriving DecidableEq, Repr

namespace Modifier

/-- The keyword of a modifier. -/
def keyword : Modifier → String
  | static => "static"
  | abstract => "abstract"
  | sealed => "sealed"
  | readonly => "readonly"
  | partialType => "partial"

/-- The spellings of a modifier. -/
def spellings : List (String × Modifier) :=
  [static, abstract, sealed, readonly, partialType].map fun m => (m.keyword, m)

end Modifier

/-- A built-in emitter that an entry can ask for. -/
inductive BodyKind where
  | properties
  | equatable
  deriving DecidableEq, Repr

namespace BodyKind

/-- The name of the emitter. -/
def name : BodyKind → String
  | properties => "properties"
  | equatable => "equatable"

/-- The spellings of an emitter. -/
def spellings : List (String × BodyKind) :=
  [properties, equatable].map fun k => (k.name, k)

end BodyKind

/-- What an indentation is made of. -/
inductive IndentStyle where
  | spaces
  | tab
  deriving DecidableEq, Repr, Inhabited

namespace IndentStyle

/-- The name of a style. -/
def name : IndentStyle → String
  | spaces => "spaces"
  | tab => "tab"

/-- The spellings of a style in a manifest. -/
def spellings : List (String × IndentStyle) :=
  [spaces, tab].map fun s => (s.name, s)

/-- The style that a word means, in any case and in singular or plural. -/
def ofWord? (word : String) : Option IndentStyle :=
  let lowered := Text.lowerAll word
  if lowered = "spaces" ∨ lowered = "space" then some spaces
  else if lowered = "tab" ∨ lowered = "tabs" then some tab
  else none

/-- The wording for a word that means no style. -/
def unknownMessage (word : String) : String :=
  "unknown indent style '" ++ word ++ "', expected 'spaces' or 'tab'"

end IndentStyle

/-! ### Options -/

/-- How files are indented. -/
structure IndentConfig where
  style : IndentStyle := .spaces
  /-- The number of characters of a level, by default four spaces or one tab. -/
  width : Option Nat := none
  deriving DecidableEq, Repr, Inhabited

/-- The indentation that is asked for; it fails for a width of zero, and for one
that no text can have. -/
def IndentConfig.indent (c : IndentConfig) : Except Failure Indent :=
  match c.style with
  | .spaces => Indent.make ' ' (c.width.getD 4)
  | .tab => Indent.make '\t' (c.width.getD 1)

/-- The options of all files of a manifest. -/
structure ManifestOptions where
  file : FileOptions := {}
  /-- How the name of a file ends, when not in the usual way. -/
  suffix : Option String := none
  indent : IndentConfig := {}
  deriving DecidableEq, Repr, Inhabited

/-! ### Entries -/

/-- A member of an entry. -/
structure MemberEntry where
  name : String
  /-- The type as written. -/
  type : String
  /-- Whether the member is a field, as opposed to a property. -/
  field : Bool := false
  accessibility : Option Accessibility := none
  getter : Option Accessibility := none
  setter : Option Accessibility := none
  isRequired : Bool := false
  isVirtual : Bool := false
  isAbstract : Bool := false
  isReadOnly : Bool := false
  isInitOnly : Bool := false
  attributes : List String := []
  deriving DecidableEq, Repr, Inhabited

/-- The accessibility of a member, public by default. -/
def MemberEntry.access (m : MemberEntry) : Accessibility :=
  m.accessibility.getD .publicAccess

/-- The accessibilities that an entry gives a member and its accessors. -/
def MemberEntry.accesses (m : MemberEntry) : List Accessibility :=
  m.access :: (m.getter.toList ++ m.setter.toList)

/-- A hand-written piece of the body of an entry. -/
structure SnippetEntry where
  name : Option String := none
  text : String
  outerUsings : List String := []
  innerUsings : List String := []
  attributes : List String := []
  interfaces : List String := []
  deriving DecidableEq, Repr, Inhabited

/-- A type around the type of an entry; as it is declared elsewhere too, it
is partial by default. -/
structure ContainingEntry where
  name : String
  kind : Option TypeKind := none
  isRecord : Bool := false
  accessibility : Option Accessibility := none
  modifiers : List Modifier := [.partialType]
  deriving DecidableEq, Repr, Inhabited

/-- The kind of a type around an entry, a class by default. -/
def ContainingEntry.typeKind (e : ContainingEntry) : TypeKind :=
  e.kind.getD .classType

/-- The accessibility of a type around an entry, public by default. -/
def ContainingEntry.access (e : ContainingEntry) : Accessibility :=
  e.accessibility.getD .publicAccess

/-- A type to generate. -/
structure TypeEntry where
  name : String
  ns : Option String := none
  kind : Option TypeKind := none
  isRecord : Bool := false
  accessibility : Option Accessibility := none
  modifiers : List Modifier := []
  /-- The base type as written. -/
  base : Option String := none
  /-- The interfaces as written. -/
  interfaces : List String := []
  /-- The names of the generic parameters. -/
  generics : List String := []
  attributes : List String := []
  /-- The summary for a documentation comment. -/
  doc : Option String := none
  /-- The types around the type, the immediate one first. -/
  containing : List ContainingEntry := []
  /-- The emitters of the body in order. -/
  emitters : List BodyKind := [.properties]
  members : List MemberEntry := []
  /-- The hand-written pieces of the body, which come after those of the
  emitters. -/
  snippets : List SnippetEntry := []
  deriving DecidableEq, Repr, Inhabited

namespace TypeEntry

/-- The kind of an entry, a class by default. -/
def typeKind (e : TypeEntry) : TypeKind :=
  e.kind.getD .classType

/-- The accessibility of an entry, public by default. -/
def access (e : TypeEntry) : Accessibility :=
  e.accessibility.getD .publicAccess

/-- The name with the namespace in front; a blank namespace is none. -/
def fullName (e : TypeEntry) : String :=
  match e.ns.filter (!Text.isBlankText ·) with
  | some ns => ns ++ "." ++ e.name
  | none => e.name

/-- Whether an entry has a modifier. -/
def hasModifier (e : TypeEntry) (m : Modifier) : Bool :=
  e.modifiers.contains m

end TypeEntry

/-- What to generate and how. -/
structure Manifest where
  /-- The assembly that the types are marked with. -/
  generator : Option Assembly := none
  options : ManifestOptions := {}
  types : List TypeEntry := []
  deriving DecidableEq, Repr, Inhabited

end SharpSource
