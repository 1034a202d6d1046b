import SharpSource.SharedArray
import SharpSource.TypeSpec

/-!
# Descriptions in storage

Members, descriptions, descriptors and specifications as they are kept: their
lists are shared arrays, and a descriptor shares its description. What such a
value **stands for** is the same with plain lists (`StoredDesc.value`).

Equality and fingerprints go through the fields one by one. They stop at places:
two arrays at one place, or two descriptors of the description at one place, are
not looked into any further (`StoredDesc.beq`, `StoredDescriptor.beq`).
-/

namespace SharpSource

/-- The tokens of an array of texts. -/
def SharedArray.textTokens (a : SharedArray String) : List HashToken :=
  a.fingerprintWith fun s => [.text s]

/-! ### Members -/

/-- A member in storage. -/
structure StoredMember where
  name : String
  type : TypeRef
  declaring : TypeRef
  accessibility : Accessibility := .publicAccess
  getter : Accessibility := .publicAccess
  setter : Accessibility := .publicAccess
  attributes : SharedArray String := .empty
  isProperty : Bool := true
  isVirtual : Bool := false
  isAbstract : Bool := false
  isRequired : Bool := false
  isReadOnly : Bool := false
  isInitOnly : Bool := false
  deriving Repr, Inhabited

namespace StoredMember

/-- The member that is stored. -/
def value (m : StoredMember) : Member :=
  { m with attributes := m.attributes.elements }

/-- Equality of members, with places. The token of a member follows from its
name. -/
protected def beq (a b : StoredMember) : Bool :=
  a.name == b.name && a.type == b.type && a.declaring == b.declaring &&
    a.accessibility == b.accessibility && a.getter == b.getter && a.setter == b.setter &&
    a.attributes.beqWith (· == ·) b.attributes && a.isProperty == b.isProperty &&
    a.isVirtual == b.isVirtual && a.isAbstract == b.isAbstract && a.isRequired == b.isRequired &&
    a.isReadOnly == b.isReadOnly && a.isInitOnly == b.isInitOnly

/-- The tokens that a hash of the member is fed. -/
def fingerprint (m : StoredMember) : List HashToken :=
  [.text m.name, .text (Identifier.escape m.name)] ++ m.type.fingerprint ++
  m.declaring.fingerprint ++
  [.text m.accessibility.name, .text m.getter.name, .text m.setter.name] ++
  m.attributes.textTokens ++
  [.flag m.isProperty, .flag m.isVirtual, .flag m.isAbstract, .flag m.isRequired,
    .flag m.isReadOnly, .flag m.isInitOnly]

end StoredMember

/-! ### Descriptions -/

/-- A description in storage. -/
structure StoredDesc where
  name : String
  ns : Option String := none
  kind : TypeKind := .classType
  special : SpecialType := .ordinary
  accessibility : Accessibility := .publicAccess
  isValue : Bool := false
  isRecord : Bool := false
  isStatic : Bool := false
  isAbstract : Bool := false
  isSealed : Bool := false
  isReadOnly : Bool := false
  isPartial : Bool := false
  attributes : SharedArray String := .empty
  bases : SharedArray StoredDesc := .empty
  interfaces : SharedArray StoredDesc := .empty
  generics : SharedArray StoredDesc := .empty
  containing : SharedArray StoredDesc := .empty
  members : SharedArray StoredMember := .empty
  remembered : RememberedNames := {}
  deriving Inhabited

namespace StoredDesc

/-- The arrays of descriptions that a description holds. -/
def arrays (d : StoredDesc) : List (SharedArray StoredDesc) :=
  [d.bases, d.interfaces, d.generics, d.containing]

mutual

/-- The description that is stored. -/
def value : StoredDesc → TypeDesc
  | d@{ bases, interfaces, generics, containing, .. } =>
    { name := d.name
      ns := d.ns
      kind := d.kind
      special := d.special
      accessibility := d.accessibility
      isValue := d.isValue
      isRecord := d.isRecord
      isStatic := d.isStatic
      isAbstract := d.isAbstract
      isSealed := d.isSealed
      isReadOnly := d.isReadOnly
      isPartial := d.isPartial
      attributes := d.attributes.elements
      members := d.members.elements.map StoredMember.value
      bases := arrayValues bases
      interfaces := arrayValues interfaces
      generics := arrayValues generics
      containing := arrayValues containing
      remembered := d.remembered }

/-- The descriptions that are stored in an array. -/
def arrayValues : SharedArray StoredDesc → List TypeDesc
  | .empty => []
  | .stored _ ds => listValues ds

def listValues : List StoredDesc → List TypeDesc
  | [] => []
  | d :: ds => value d :: listValues ds

end

mutual

/-- Equality of descriptions, with places. -/
protected def beq : StoredDesc → StoredDesc → Bool
  | d@{ bases, interfaces, generics, containing, .. },
    d'@{ bases := bases', interfaces := interfaces', generics := generics',
         containing := containing', .. } =>
    d.name == d'.name && d.ns == d'.ns && d.kind == d'.kind && d.special == d'.special &&
      d.accessibility == d'.accessibility && d.isValue == d'.isValue &&
      d.isRecord == d'.isRecord && d.isStatic == d'.isStatic && d.isAbstract == d'.isAbstract &&
      d.isSealed == d'.isSealed && d.isReadOnly == d'.isReadOnly &&
      d.isPartial == d'.isPartial && d.attributes.beqWith (· == ·) d'.attributes &&
      beqArray bases bases' && beqArray interfaces interfaces' && beqArray generics generics' &&
      beqArray containing containing' && d.members.beqWith StoredMember.beq d'.members

/-- Equality of arrays of descriptions: at one place they are equal. -/
def beqArray : SharedArray StoredDesc → SharedArray StoredDesc → Bool
  | .stored p ds, .stored q ds' => p == q || beqList ds ds'
  | .stored _ ds, .empty => beqList ds []
  | .empty, a => a.elements.isEmpty

def beqList : List StoredDesc → List StoredDesc → Bool
  | [], [] => true
  | d :: ds, d' :: ds' => StoredDesc.beq d d' && beqList ds ds'
  | _, _ => false

end

mutual

/-- The tokens that a hash of the description is fed. -/
def fingerprint : StoredDesc → List HashToken
  | d@{ bases, interfaces, generics, containing, .. } =>
    [.text d.name] ++ fingerprintOption d.ns ++
    [.text d.kind.name, .text d.special.name, .text d.accessibility.name, .flag d.isValue,
      .flag d.isRecord, .flag d.isStatic, .flag d.isAbstract, .flag d.isSealed,
      .flag d.isReadOnly, .flag d.isPartial] ++
    d.attributes.textTokens ++
    fingerprintArray bases ++ fingerprintArray interfaces ++ fingerprintArray generics ++
    fingerprintArray containing ++ d.members.fingerprintWith StoredMember.fingerprint

/-- The tokens of an array of descriptions. -/
def fingerprintArray : SharedArray StoredDesc → List HashToken
  | .empty => [.count 0]
  | .stored _ ds => .count ds.length :: fingerprintItems ds

def fingerprintItems : List StoredDesc → List HashToken
  | [] => []
  | d :: ds => fingerprint d ++ fingerprintItems ds

end

end StoredDesc

/-! ### Descriptors -/

/-- A descriptor in storage: a description at a place that it may share, or a
reference. -/
inductive StoredDescriptor where
  | desc (place : Nat) (d : StoredDesc)
  | ref (t : TypeRef)
  deriving Inhabited

namespace StoredDescriptor

/-- The descriptor that is stored. -/
def value : StoredDescriptor → Descriptor
  | desc _ d => .desc d.value
  | ref t => .ref t

/-- Equality of descriptors, with places. -/
protected def beq : StoredDescriptor → StoredDescriptor → Bool
  | desc p d, desc q d' => p == q || d.beq d'
  | ref t, ref t' => t == t'
  | _, _ => false

/-- The tokens that a hash of the descriptor is fed. -/
def fingerprint : StoredDescriptor → List HashToken
  | desc _ d => .flag false :: d.fingerprint
  | ref t => .flag true :: t.fingerprint

end StoredDescriptor

/-! ### Specifications -/

/-- A specification in storage. -/
structure StoredSpec where
  ns : Option String
  declarations : SharedArray String
  target : StoredDescriptor
  attributes : SharedArray String := .empty
  members : SharedArray StoredMember := .empty
  others : SharedArray StoredDescriptor := .empty
  deriving Inhabited

namespace StoredSpec

/-- The specification that is stored. -/
def value (s : StoredSpec) : TypeSpec where
  ns := s.ns
  declarations := s.declarations.elements
  target := s.target.value
  attributes := s.attributes.elements
  members := s.members.elements.map StoredMember.value
  others := s.others.elements.map StoredDescriptor.value

/-- Equality of specifications, with places. -/
protected def beq (a b : StoredSpec) : Bool :=
  a.ns == b.ns && a.declarations.beqWith (· == ·) b.declarations && a.target.beq b.target &&
    a.attributes.beqWith (· == ·) b.attributes && a.members.beqWith StoredMember.beq b.members &&
    a.others.beqWith StoredDescriptor.beq b.others

/-- The tokens that a hash of the specification is fed. -/
def fingerprint (s : StoredSpec) : List HashToken :=
  fingerprintOption s.ns ++ s.declarations.textTokens ++ s.target.fingerprint ++
    s.attributes.textTokens ++ s.members.fingerprintWith StoredMember.fingerprint ++
    s.others.fingerprintWith StoredDescriptor.fingerprint

end StoredSpec

/-! ### Memory -/

/-- What is stored for all arrays, and the descriptions that descriptors
share. -/
structure Memory where
  texts : Heap String := .blank
  members : Heap StoredMember := .blank
  descs : Heap StoredDesc := .blank
  descriptors : Heap StoredDescriptor := .blank
  shared : List StoredDesc := []

/-- A memory **grows** into another when all that is stored stays where it
is. -/
structure Memory.Grows (m m' : Memory) : Prop where
  texts : m.texts.Grows m'.texts
  members : m.members.Grows m'.members
  descs : m.descs.Grows m'.descs
  descriptors : m.descriptors.Grows m'.descriptors
  shared : m.shared <+: m'.shared

/-- **A member lives in a memory** when its attributes do. -/
def StoredMember.LivesIn (m : Memory) (a : StoredMember) : Prop :=
  a.attributes.LivesIn m.texts

/-- **A description lives in a memory** when its arrays do, and what they
hold. -/
inductive StoredDesc.LivesIn (m : Memory) : StoredDesc → Prop where
  | mk {d : StoredDesc} (attributes : d.attributes.LivesIn m.texts)
      (members : d.members.LivesIn m.members) (ofMembers : ∀ a ∈ d.members.elements, a.LivesIn m)
      (arrays : ∀ a ∈ d.arrays, a.LivesIn m.descs)
      (inside : ∀ a ∈ d.arrays, ∀ b ∈ a.elements, LivesIn m b) : LivesIn m d

/-- **A descriptor lives in a memory** when its description is the one at its
place, and lives there. -/
def StoredDescriptor.LivesIn (m : Memory) : StoredDescriptor → Prop
  | desc p d => m.shared[p]? = some d ∧ d.LivesIn m
  | ref _ => True

/-- **A specification lives in a memory** when its arrays do, and what they
hold. -/
structure StoredSpec.LivesIn (m : Memory) (s : StoredSpec) : Prop where
  declarations : s.declarations.LivesIn m.texts
  target : s.target.LivesIn m
  attributes : s.attributes.LivesIn m.texts
  members : s.members.LivesIn m.members
  ofMembers : ∀ a ∈ s.members.elements, a.LivesIn m
  others : s.others.LivesIn m.descriptors
  ofOthers : ∀ t ∈ s.others.elements, t.LivesIn m

end SharpSource
