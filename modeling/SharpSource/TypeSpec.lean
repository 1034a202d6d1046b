import SharpSource.Declaration.Basic
import SharpSource.Descriptor

/-!
# Specifications

What a file is generated from: the target type, its declaration with those of
the types around it, and what the emitters need to know. A specification is
made from a description, or put together from declarations that are written
already.

Specifications are keys of a cache, so they are compared and hashed like the
descriptions they hold.
-/

namespace SharpSource

/-- What one file is generated from. -/
structure TypeSpec where
  /-- The namespace of the target. -/
  ns : Option String
  /-- The declaration of the target, then those of the types that it stands in,
  the immediate one first. -/
  declarations : List String
  /-- The type that the file is for. -/
  target : Descriptor
  /-- The attributes of the target. -/
  attributes : List String := []
  /-- The members of the target. -/
  members : List Member := []
  /-- The other types that are generated. -/
  others : List Descriptor := []
  deriving Repr, Inhabited, BEq

namespace TypeSpec

/-- The specification of a described type. It fails where the declaration of the
type, or of one around it, does. -/
def ofDesc (d : TypeDesc) (others : List Descriptor) : Except Failure TypeSpec := do
  let declarations ← (Declaration.nest d).mapM Declaration.ofDesc
  return { ns := d.ns, declarations, target := .desc d, attributes := d.attributes,
           members := d.members, others }

/-- The name that the file is called by. -/
def targetName (s : TypeSpec) : String :=
  s.target.name

/-- The tokens that a hash of the specification is fed. -/
def fingerprint (s : TypeSpec) : List HashToken :=
  fingerprintOption s.ns ++ fingerprintList (fun d => [.text d]) s.declarations ++
    s.target.fingerprint ++ fingerprintList (fun a => [.text a]) s.attributes ++
    fingerprintList Member.fingerprint s.members ++
    fingerprintList Descriptor.fingerprint s.others

end TypeSpec

end SharpSource
