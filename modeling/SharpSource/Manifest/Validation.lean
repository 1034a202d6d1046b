import SharpSource.Manifest.Basic
import SharpSource.Manifest.Error
import SharpSource.Manifest.Location

/-!
# Validation

Whether a manifest asks for files that can be written and tells them apart. The
checks run through the entries in order and stop at the first that fails: the
name of an entry and whether it is new, its namespace, kind and accessibility,
its generic parameters, the types around it, and its members.

A name of a type, a parameter or a part of a namespace is an identifier and no
reserved keyword. A member may be called like a keyword.
-/

namespace SharpSource

/-- The outcome of a check. -/
abbrev Check := Except ManifestError Unit

namespace Scope

/-- The failure of a check by a problem. -/
def fail (s : Scope) (p : Problem) (span : Option Span) : Check :=
  .error (.problem s.file p span)

/-! ### Names -/

/-- Checks that a name is an identifier. -/
def checkIdentifier (s : Scope) (name sort : String) : Check :=
  match Identifier.fault? name with
  | some fault => .error (.badIdentifier s.file name (s.contextOf sort) fault (s.find? name))
  | none => .ok ()

/-- Checks that a name is an identifier and no reserved keyword. -/
def checkName (s : Scope) (name sort : String) : Check :=
  if Identifier.isKeyword name then
    .error (.reservedKeyword s.file name (s.contextOf sort) (s.find? name))
  else s.checkIdentifier name sort

/-- Checks the name of a member. -/
def checkMemberName (s : Scope) (name : String) : Check :=
  s.checkIdentifier name "member"

/-- Checks that each part of a namespace is a name. -/
def checkNamespace (s : Scope) (ns : String) : Check :=
  if Text.isBlankText ns then s.fail (.emptyNamespace (s.contextOf "namespace")) (s.find? ns)
  else (Text.split '.' ns).forM fun part => s.checkName part "namespace segment"

/-! ### Kinds and accessibilities -/

/-- Checks that types of a kind can be declared, and as records if they are to
be. -/
def checkKind (s : Scope) (kind : TypeKind) (record : Bool) : Check :=
  if (kind.keyword? false).isNone then s.fail (.undeclarable (s.contextOf "type") kind) none
  else if record && !(kind == .classType || kind == .structType) then
    s.fail (.noRecord (s.contextOf "type") kind) none
  else .ok ()

/-- Checks that an accessibility has a keyword. -/
def checkAccessibility (s : Scope) (a : Accessibility) : Check :=
  match a.keyword? with
  | some _ => .ok ()
  | none => s.fail (.accessibility (s.contextOf "declaration") a) none

/-! ### Entries -/

/-- Checks a type around an entry. -/
def checkContaining (s : Scope) (e : ContainingEntry) : Check := do
  s.checkName e.name "containing type"
  let inner := s.push e.name
  inner.checkKind e.typeKind e.isRecord
  inner.checkAccessibility e.access

/-- Checks a member. -/
def checkMember (s : Scope) (m : MemberEntry) : Check := do
  s.checkMemberName m.name
  if Text.isBlankText m.type then
    s.fail (.emptyType (s.contextOf "member") m.name) (s.find? m.name)
  else m.accesses.forM s.checkAccessibility

/-- Checks an entry but for its name, in the scope inside of it. -/
def checkEntry (s : Scope) (e : TypeEntry) : Check := do
  e.ns.forM s.checkNamespace
  s.checkKind e.typeKind e.isRecord
  s.checkAccessibility e.access
  e.generics.forM (s.checkName · "generic parameter")
  e.containing.forM s.checkContaining
  e.members.forM (s.push "members").checkMember

/-- The error of a name that two entries share. -/
def duplicateError (s : Scope) (name : String) : ManifestError :=
  match Location.findAll s.source name with
  | first :: second :: _ => .duplicateType s.file name first second
  | _ => .problem s.file (.duplicate name) (s.find? name)

/-- Checks entries, none of which may have a name that was seen before. -/
def checkEntries (s : Scope) : (seen : List String) → List TypeEntry → Check
  | _, [] => .ok ()
  | seen, e :: es => do
    s.checkName e.name "type"
    if e.name ∈ seen then .error (s.duplicateError e.name)
    else do
      (s.push e.name).checkEntry e
      checkEntries s (seen ++ [e.name]) es

end Scope

/-- Checks a manifest against the text that it was read from. -/
def Manifest.validate (m : Manifest) (source file : String) : Check :=
  let scope : Scope := { source, file }
  match m.options.indent.indent with
  | .error failure => scope.fail (.indent failure) none
  | .ok _ => scope.checkEntries [] m.types

end SharpSource
