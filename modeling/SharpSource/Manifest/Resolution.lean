import SharpSource.Descriptor
import SharpSource.Manifest.Basic

/-!
# The types of members

A manifest writes the type of a member as it would stand in source. Its
**suffix** of question marks and brackets is split off, and what is left is
looked up: a keyword of the language, a type of the manifest, a name with a
namespace, or else a name to be written as it is. Then the suffix is put back.
-/

namespace SharpSource

/-! ### Suffixes -/

namespace TypeSuffix

/-- The characters that may stand between the brackets of an array. -/
def isFiller (c : Char) : Bool :=
  c == ',' || Text.isBlank c

/-- Takes one question mark, or one pair of brackets, off the end of a type,
whose characters are given from the end. -/
def stripMark? (cs : List Char) : Option (List Char) :=
  match cs.dropWhile Text.isBlank with
  | '?' :: rest => some rest
  | ']' :: rest =>
    match rest.dropWhile isFiller with
    | '[' :: rest => some rest
    | _ => none
  | _ => none

theorem length_dropWhile_le (p : Char → Bool) (cs : List Char) :
    (cs.dropWhile p).length ≤ cs.length :=
  (List.dropWhile_sublist p).length_le

/-- A type is shorter without a mark. -/
theorem length_lt_of_stripMark? {cs rest : List Char} (h : stripMark? cs = some rest) :
    rest.length < cs.length := by
  have hcs := length_dropWhile_le Text.isBlank cs
  rw [stripMark?] at h
  split at h
  · rename_i r hr
    obtain rfl : r = rest := by simpa using h
    rw [hr, List.length_cons] at hcs
    omega
  · rename_i r hr
    have hfill := length_dropWhile_le isFiller r
    rw [hr, List.length_cons] at hcs
    split at h
    · rename_i r' hr'
      obtain rfl : r' = rest := by simpa using h
      rw [hr', List.length_cons] at hfill
      omega
    · exact absurd h (by simp)
  · exact absurd h (by simp)

/-- Takes all question marks and brackets off the end of a type, whose
characters are given from the end. What is left may start with blanks. -/
def strip (cs : List Char) : List Char :=
  match h : stripMark? cs with
  | some rest =>
    have : rest.length < cs.length := length_lt_of_stripMark? h
    strip rest
  | none => cs
termination_by cs.length

/-- A type split into its base and its suffix; the suffix has lost its
blanks. -/
def split (type : String) : String × String :=
  let cs := type.toList
  let base := (strip cs.reverse).reverse
  (String.ofList (Text.dropBlankEnd base),
    String.ofList ((cs.drop base.length).filter (!Text.isBlank ·)))

end TypeSuffix

/-- Whether a name has a namespace in front. -/
def isQualified (name : String) : Bool :=
  Text.startsWith globalAlias name || '.' ∈ (TypeRef.cutGenerics name.toList).1

namespace Manifest

/-- The entry with a name, simple or with its namespace; the alias of the root
may stand in front. -/
def findType? (m : Manifest) (name : String) : Option TypeEntry :=
  m.types.find? fun e => e.name == unaliased name || e.fullName == unaliased name

end Manifest

/-- The reference to the type of an entry. -/
def TypeEntry.toRef (e : TypeEntry) : TypeRef :=
  .ofParts e.name e.ns e.typeKind

namespace Manifest

/-- The reference that the base of a type stands for. -/
def resolveBase (m : Manifest) (base : String) : TypeRef :=
  match TypeRef.ofKeyword? base, m.findType? base with
  | some t, _ => t
  | none, some e => e.toRef
  | none, none => if isQualified base then .ofName base .classType else .verbatim base .classType

/-- The reference that a type stands for. -/
def resolve (m : Manifest) (type : String) : TypeRef :=
  let (base, suffix) := TypeSuffix.split (Text.trim type)
  (m.resolveBase base).withSuffix suffix

end Manifest

end SharpSource
