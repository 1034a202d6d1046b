import SharpSource.TypeDesc

/-!
# Descriptors

A descriptor stands for a type that is generated or referred to: a description
when all of the type is known, a reference when only its name is. Either has an
**identity**, and a description turns into the reference with its identity; but
a description and a reference are never equal.
-/

namespace SharpSource

/-- What a description of a type and a reference to it have in common. -/
structure Identity where
  /-- The simple name. -/
  name : String
  /-- The name qualified from the root of all namespaces. -/
  qualifiedName : String
  /-- Whether instances are values. -/
  isValue : Bool
  kind : TypeKind
  special : SpecialType
  deriving DecidableEq, Repr

/-- Whether a type has the value `null`: a reference always, a value only when
it is made nullable. -/
def Identity.canBeNull (i : Identity) : Bool :=
  !i.isValue || i.special == .nullable

/-- The identity of a referenced type. -/
def TypeRef.identity (t : TypeRef) : Identity :=
  ⟨t.name, t.qualifiedName, t.isValue, t.kind, t.special⟩

/-- The identity of a described type. -/
def TypeDesc.identity (d : TypeDesc) : Identity :=
  ⟨d.name, d.assemblyName, d.isValue, d.kind, d.special⟩

/-- The reference to a described type. -/
def TypeDesc.toRef (d : TypeDesc) : TypeRef :=
  { name := d.name
    qualifiedName := d.assemblyName
    isValue := d.isValue
    kind := d.kind
    special := d.special }

@[simp] theorem TypeDesc.identity_toRef (d : TypeDesc) : d.toRef.identity = d.identity := rfl

/-- A type that is described or only referred to. -/
inductive Descriptor where
  | desc (d : TypeDesc)
  | ref (t : TypeRef)
  deriving Repr, Inhabited, BEq

namespace Descriptor

/-- The identity of a type. -/
def identity : Descriptor → Identity
  | desc d => d.identity
  | ref t => t.identity

/-- The simple name of a type. -/
def name (t : Descriptor) : String :=
  t.identity.name

/-- The name of a type qualified from the root of all namespaces. -/
def qualifiedName (t : Descriptor) : String :=
  t.identity.qualifiedName

/-- The description of a type, where there is one. -/
def desc? : Descriptor → Option TypeDesc
  | desc d => some d
  | ref _ => none

/-- The tokens that a hash of the descriptor is fed. -/
def fingerprint : Descriptor → List HashToken
  | desc d => .flag false :: d.fingerprint
  | ref t => .flag true :: t.fingerprint

end Descriptor

end SharpSource
