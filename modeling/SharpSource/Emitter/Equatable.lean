import SharpSource.Emitter.Basic

/-!
# Equality of a type

The emitter that makes a target equatable: it adds the interface, compares the
members one by one, and hashes them in the same order. It takes part for
classes and structs that are described in full and neither static nor records;
a record compares its members already.
-/

namespace SharpSource.Emitter

/-- The description of a target that can be made equatable. -/
def equatableTarget? (spec : TypeSpec) : Option TypeDesc :=
  spec.target.desc?.filter fun d =>
    !d.isRecord && !d.isStatic && (d.kind == .classType || d.kind == .structType)

/-- The comparison of one member with that of another instance. -/
def comparison (m : Member) : String :=
  "global::System.Collections.Generic.EqualityComparer<" ++ m.type.sourceName ++
    ">.Default.Equals(" ++ m.token ++ ", other." ++ m.token ++ ")"

/-- The statement that compares all members, one on each line. -/
def comparisonStatement (indent : Indent) (members : List Member) : String :=
  if members.isEmpty then "return true;"
  else "return " ++ ("\n" ++ indent.unit ++ "&& ").intercalate (members.map comparison) ++ ";"

/-- What only instances that are references have to be asked. -/
def referenceChecks : List String :=
  ["if (other is null) return false;", "if (ReferenceEquals(this, other)) return true;"]

/-- Writes what makes a described type equatable. -/
def writeEquatable (ctx : Context) (d : TypeDesc) (w : Writer) : Except Failure Writer := do
  let self := d.genericName
  let mark := if ctx.options.nullableAnnotations then "?" else ""
  let otherMark := if d.isValue then "" else mark
  let members := ctx.spec.members
  let w := (w.line ("public bool Equals(" ++ self ++ otherMark ++ " other)")).openBlock
  let w := w.lines (if d.isValue then [] else referenceChecks)
  let w ← (w.line (comparisonStatement w.indent members)).closeBlock
  let w := w.blankLine.line
    ("public override bool Equals(object" ++ mark ++ " obj) => obj is " ++ self ++
      " other && Equals(other);")
  let w := (w.blankLine.line "public override int GetHashCode()").openBlock
  let w := w.line "var hash = new global::System.HashCode();"
  let w := w.lines (members.map fun m => "hash.Add(" ++ m.token ++ ");")
  (w.line "return hash.ToHashCode();").closeBlock

/-- The emitter that makes the target equatable. -/
def equatable : Emitter where
  name := "equatable"
  accepts ctx := (equatableTarget? ctx.spec).isSome
  interfaces ctx :=
    match equatableTarget? ctx.spec with
    | some d => ["global::System.IEquatable<" ++ d.genericName ++ ">"]
    | none => []
  write ctx w :=
    match equatableTarget? ctx.spec with
    | some d => writeEquatable ctx d w
    | none => .ok w

end SharpSource.Emitter
