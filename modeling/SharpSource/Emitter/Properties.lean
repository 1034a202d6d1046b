import SharpSource.Emitter.Basic

/-!
# The properties of a type

The emitter that declares the members of a target, each as a property with
accessors or as a field, with the member's attributes on lines above it. It
declines a target without members.
-/

namespace SharpSource

namespace Member

/-- An accessor of a property; its accessibility is written only where it
differs from that of the property. -/
def accessor (own : Accessibility) (m : Member) (keyword : String) : Except Failure String :=
  if own = m.accessibility then .ok (keyword ++ ";")
  else do
    let access ← Declaration.accessibility own
    return access ++ " " ++ keyword ++ ";"

/-- The declaration of a property. -/
def propertyLine (m : Member) : Except Failure String := do
  let access ← Declaration.accessibility m.accessibility
  let getter ← m.accessor m.getter "get"
  let setter ←
    if m.isReadOnly then pure ""
    else (" " ++ ·) <$> m.accessor m.setter (if m.isInitOnly then "init" else "set")
  return access ++ " " ++ (if m.isRequired then "required " else "") ++
    (if m.isAbstract then "abstract " else if m.isVirtual then "virtual " else "") ++
    m.type.sourceName ++ " " ++ m.token ++ " \x7b " ++ getter ++ setter ++ " \x7d"

/-- The declaration of a field. -/
def fieldLine (m : Member) : Except Failure String := do
  let access ← Declaration.accessibility m.accessibility
  return access ++ " " ++ (if m.isRequired then "required " else "") ++
    (if m.isReadOnly then "readonly " else "") ++ m.type.sourceName ++ " " ++ m.token ++ ";"

/-- The declaration of a member. -/
def declaration (m : Member) : Except Failure String :=
  if m.isProperty then m.propertyLine else m.fieldLine

/-- The lines of attributes above the declaration of a member. -/
def attributeLines (m : Member) : List String :=
  m.attributes.map fun a => "[" ++ a ++ "]"

/-- Writes a member, its attributes above it. -/
def write (w : Writer) (m : Member) : Except Failure Writer := do
  let declared ← m.declaration
  return (w.lines m.attributeLines).line declared

end Member

/-- The emitter that declares the members of the target. -/
def Emitter.properties : Emitter where
  name := "properties"
  accepts ctx := !ctx.spec.members.isEmpty
  write ctx w := ctx.spec.members.foldlM Member.write w

end SharpSource
