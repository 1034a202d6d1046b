import SharpSource.Member

/-!
# Descriptions of types

A `TypeDesc` describes a type in full: what it is (`TypeFacts`), and the types
that it extends, implements, takes as arguments and stands in, each again a
description. Equality and fingerprints look at all of it, lists compared in
order.

The two qualified names of a description are computed when they are first
asked for and then **remembered** beside it. A remembered name is no part of
the description: equality, fingerprints and diagnostics do not see it, and
whatever changes a name or a namespace forgets it.
-/

namespace SharpSource

/-- What a type is, apart from the types it is built from. -/
structure TypeFacts where
  /-- The simple name. -/
  name : String
  /-- The namespace, none for the global one. -/
  ns : Option String := none
  kind : TypeKind := .classType
  special : SpecialType := .ordinary
  accessibility : Accessibility := .publicAccess
  /-- Whether instances are values. -/
  isValue : Bool := false
  isRecord : Bool := false
  isStatic : Bool := false
  isAbstract : Bool := false
  isSealed : Bool := false
  isReadOnly : Bool := false
  isPartial : Bool := false
  /-- The attributes of the type, without brackets. -/
  attributes : List String := []
  members : List Member := []
  deriving Repr, Inhabited, BEq

namespace TypeFacts

/-- The name with the namespace in front. -/
def fullName (f : TypeFacts) : String :=
  match f.ns with
  | some ns => ns ++ "." ++ f.name
  | none => f.name

/-- The tokens that a hash of the facts is fed, apart from those of the
members. -/
def fingerprint (f : TypeFacts) : List HashToken :=
  [.text f.name] ++ fingerprintOption f.ns ++
  [.text f.kind.name, .text f.special.name, .text f.accessibility.name, .flag f.isValue,
    .flag f.isRecord, .flag f.isStatic, .flag f.isAbstract, .flag f.isSealed, .flag f.isReadOnly,
    .flag f.isPartial] ++
  fingerprintList (fun a => [.text a]) f.attributes

end TypeFacts

/-- The qualified names that a description remembers. -/
structure RememberedNames where
  /-- The name with the namespace in front. -/
  typeName : Option String := none
  /-- The same qualified from the root of all namespaces. -/
  assemblyName : Option String := none
  deriving Repr, Inhabited

/-- The description of a type. -/
structure TypeDesc extends TypeFacts where
  /-- The types that it extends. -/
  bases : List TypeDesc := []
  /-- The interfaces that it implements. -/
  interfaces : List TypeDesc := []
  /-- Its generic parameters or arguments. -/
  generics : List TypeDesc := []
  /-- The types that it stands in, the immediate one first. -/
  containing : List TypeDesc := []
  remembered : RememberedNames := {}
  deriving Repr, Inhabited

namespace TypeDesc

/-! ### Building -/

/-- A public class without parameters in the global namespace. -/
def ofName (name : String) : TypeDesc :=
  { name }

/-- The description with nothing remembered. -/
def forget (d : TypeDesc) : TypeDesc :=
  { d with remembered := {} }

/-- The description under another name. -/
def withName (d : TypeDesc) (name : String) : TypeDesc :=
  { d with name }.forget

/-- The description in a namespace; a blank one is the global namespace. -/
def withNamespace (d : TypeDesc) (ns : String) : TypeDesc :=
  { d with ns := if Text.isBlankText ns then none else some ns }.forget

/-- The description as one of a kind, which decides whether instances are
values. -/
def withKind (d : TypeDesc) (kind : TypeKind) : TypeDesc :=
  { d with kind, isValue := kind.isValue }

/-- The description with one base type. -/
def withBase (d : TypeDesc) (base : TypeDesc) : TypeDesc :=
  { d with bases := [base] }

/-! ### Qualified names -/

/-- The name with the namespace in front, as remembered or computed. -/
def typeName (d : TypeDesc) : String :=
  d.remembered.typeName.getD d.fullName

/-- The name qualified from the root of all namespaces, as remembered or
computed. -/
def assemblyName (d : TypeDesc) : String :=
  d.remembered.assemblyName.getD (globalAlias ++ d.typeName)

/-- What a description is after its type name has been asked for. -/
def rememberTypeName (d : TypeDesc) : TypeDesc :=
  { d with remembered.typeName := some d.typeName }

/-- What a description is after its assembly name has been asked for, which asks
for its type name unless it is remembered already. -/
def rememberAssemblyName (d : TypeDesc) : TypeDesc :=
  match d.remembered.assemblyName with
  | some _ => d
  | none =>
    let d := d.rememberTypeName
    { d with remembered.assemblyName := some d.assemblyName }

/-! ### Equality and fingerprints -/

mutual

/-- Equality of descriptions; what is remembered does not count. -/
protected def beq : TypeDesc → TypeDesc → Bool
  | ⟨f, bases, interfaces, generics, containing, _⟩,
    ⟨f', bases', interfaces', generics', containing', _⟩ =>
    f == f' && TypeDesc.beqList bases bases' && TypeDesc.beqList interfaces interfaces' &&
      TypeDesc.beqList generics generics' && TypeDesc.beqList containing containing'

/-- Equality of lists of descriptions, element by element in order. -/
protected def beqList : List TypeDesc → List TypeDesc → Bool
  | [], [] => true
  | d :: ds, d' :: ds' => TypeDesc.beq d d' && TypeDesc.beqList ds ds'
  | _, _ => false

end

instance : BEq TypeDesc := ⟨TypeDesc.beq⟩

mutual

/-- The tokens that a hash of the description is fed; the members come last. -/
def fingerprint : TypeDesc → List HashToken
  | ⟨f, bases, interfaces, generics, containing, _⟩ =>
    f.fingerprint ++
    .count bases.length :: fingerprintItems bases ++
    .count interfaces.length :: fingerprintItems interfaces ++
    .count generics.length :: fingerprintItems generics ++
    .count containing.length :: fingerprintItems containing ++
    fingerprintList Member.fingerprint f.members

/-- The tokens of the descriptions of a list, one after the other. -/
def fingerprintItems : List TypeDesc → List HashToken
  | [] => []
  | d :: ds => fingerprint d ++ fingerprintItems ds

end

/-! ### Text -/

mutual

/-- The **generic name**: the simple name with the generic names of the
parameters or arguments between angle brackets. -/
def genericName : TypeDesc → String
  | ⟨f, _, _, [], _, _⟩ => f.name
  | ⟨f, _, _, g :: gs, _, _⟩ =>
    f.name ++ "<" ++ ", ".intercalate (genericName g :: genericNames gs) ++ ">"

/-- The generic names of a list of descriptions. -/
def genericNames : List TypeDesc → List String
  | [] => []
  | d :: ds => genericName d :: genericNames ds

end

theorem genericNames_eq_map (ds : List TypeDesc) : genericNames ds = ds.map genericName := by
  induction ds with
  | nil => rfl
  | cons d ds ih => simp [genericNames, ih]

/-- The facts about a type in diagnostics: its identity, its parameters, which
are given by their texts, and how many members it has. -/
def describeFacts (f : TypeFacts) (generics : List String) : String :=
  "TypeDesc \x7b name: " ++ Text.quoted f.name ++
  ", namespace: " ++ (match f.ns with
    | some ns => "Some(" ++ Text.quoted ns ++ ")"
    | none => "None") ++
  ", type_kind: " ++ f.kind.name ++ ", accessibility: " ++ f.accessibility.name ++
  ", is_record: " ++ (if f.isRecord then "true" else "false") ++
  ", generic_types: [" ++ ", ".intercalate generics ++ "]" ++
  ", members: " ++ toString f.members.length ++ ", .. \x7d"

mutual

/-- A description in diagnostics. -/
def describe : TypeDesc → String
  | ⟨f, _, _, generics, _, _⟩ => describeFacts f (describeList generics)

/-- The descriptions of a list in diagnostics. -/
def describeList : List TypeDesc → List String
  | [] => []
  | d :: ds => describe d :: describeList ds

end

end TypeDesc

end SharpSource
