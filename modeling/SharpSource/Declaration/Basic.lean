import SharpSource.Failure
import SharpSource.TypeDesc

/-!
# Declarations

The header that declares a described type: accessibility, modifiers, the word
for its kind, its generic name, and the list of the types it extends and
implements. A declaration fails when the accessibility or the kind has no
keyword; of the two the accessibility fails first.
-/

namespace SharpSource.Declaration

/-- The keywords of an accessibility. -/
def accessibility (a : Accessibility) : Except Failure String :=
  match a.keyword? with
  | some keyword => .ok keyword
  | none => .error (.accessibility a)

/-- The keywords of a kind, as a record or not. -/
def kind (k : TypeKind) (record : Bool) : Except Failure String :=
  match k.keyword? record with
  | some keyword => .ok keyword
  | none => .error (.typeKind k)

/-- The **modifiers** of a type, each with a space behind it. Of `static`,
`abstract` and `sealed` only the first that holds is written, and none for a
value; `readonly` is written for values only; `partial` comes last. -/
def modifiers (d : TypeDesc) : String :=
  (if d.isValue then ""
    else if d.isStatic then "static "
    else if d.isAbstract then "abstract "
    else if d.isSealed then "sealed "
    else "") ++
  (if d.isReadOnly && d.isValue then "readonly " else "") ++
  (if d.isPartial then "partial " else "")

/-- The declaration of a type. -/
def ofDesc (d : TypeDesc) : Except Failure String := do
  let access ← accessibility d.accessibility
  let word ← kind d.kind d.isRecord
  let header := access ++ " " ++ modifiers d ++ word ++ " " ++ d.genericName
  let bases := (d.bases ++ d.interfaces).map TypeDesc.genericName
  return if bases.isEmpty then header else header ++ " : " ++ ", ".intercalate bases

/-- A described type and the types that it stands in, the immediate one
first. -/
def nest (d : TypeDesc) : List TypeDesc :=
  d :: d.containing

end SharpSource.Declaration
