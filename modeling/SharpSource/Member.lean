import SharpSource.Identifier
import SharpSource.TypeRef

/-!
# Members

A member is a property or a field of a type. Its name is kept as declared; the
**token** that source writes for it differs only for a reserved keyword. The
accessors of a property have accessibilities of their own, which follow the
member's until they are set.
-/

namespace SharpSource

/-- A property or a field declared on a type. -/
structure Member where
  /-- The name as declared. -/
  name : String
  /-- The type of the member. -/
  type : TypeRef
  /-- The type that declares the member. -/
  declaring : TypeRef
  /-- How far the member is accessible. -/
  accessibility : Accessibility := .publicAccess
  /-- How far the accessor that reads is accessible. -/
  getter : Accessibility := .publicAccess
  /-- How far the accessor that writes is accessible. -/
  setter : Accessibility := .publicAccess
  /-- The attributes of the member, without brackets. -/
  attributes : List String := []
  /-- Whether the member is a property, as opposed to a field. -/
  isProperty : Bool := true
  isVirtual : Bool := false
  isAbstract : Bool := false
  isRequired : Bool := false
  isReadOnly : Bool := false
  /-- Whether the member can be written during initialization only. -/
  isInitOnly : Bool := false
  deriving Repr, Inhabited, BEq

namespace Member

/-- A public property that can be read and written. -/
def property (name : String) (type declaring : TypeRef) : Member :=
  { name, type, declaring }

/-- A public field. -/
def field (name : String) (type declaring : TypeRef) : Member :=
  { name, type, declaring, isProperty := false }

/-- The member with an accessibility, which its accessors follow. -/
def withAccessibility (m : Member) (a : Accessibility) : Member :=
  { m with accessibility := a, getter := a, setter := a }

/-- The token that source writes for the name of a member. -/
def token (m : Member) : String :=
  Identifier.escape m.name

/-- The tokens that a hash of the member is fed. -/
def fingerprint (m : Member) : List HashToken :=
  [.text m.name, .text m.token] ++ m.type.fingerprint ++ m.declaring.fingerprint ++
  [.text m.accessibility.name, .text m.getter.name, .text m.setter.name] ++
  fingerprintList (fun a => [.text a]) m.attributes ++
  [.flag m.isProperty, .flag m.isVirtual, .flag m.isAbstract, .flag m.isRequired,
    .flag m.isReadOnly, .flag m.isInitOnly]

end Member

end SharpSource
