import SharpSource.Emitter.Builtin
import SharpSource.FileEmitter
import SharpSource.Manifest.Error
import SharpSource.Manifest.Resolution

/-!
# From manifest to files

Every entry of a manifest becomes a description, the description a
specification, and the specification a file, put together by the emitters that
the entry asks for and by its snippets. All files are generated under the same
settings, with all types of the manifest as siblings.
-/

namespace SharpSource

/-! ### Descriptions -/

/-- A description with modifiers. -/
def TypeDesc.withModifiers (d : TypeDesc) (modifiers : List Modifier) : TypeDesc :=
  modifiers.foldl (fun d m =>
    match m with
    | .static => { d with isStatic := true }
    | .abstract => { d with isAbstract := true }
    | .sealed => { d with isSealed := true }
    | .readonly => { d with isReadOnly := true }
    | .partialType => { d with isPartial := true }) d

/-- The description of a type around an entry. -/
def ContainingEntry.toDesc (e : ContainingEntry) : TypeDesc :=
  { (TypeDesc.ofName e.name).withKind e.typeKind with
    isRecord := e.isRecord
    accessibility := e.access }.withModifiers e.modifiers

namespace Manifest

/-- The member of an entry, declared by the type of the entry. -/
def memberOf (m : Manifest) (declaring : TypeRef) (e : MemberEntry) : Member :=
  let type := m.resolve e.type
  let member := if e.field then Member.field e.name type declaring
    else Member.property e.name type declaring
  let member := member.withAccessibility e.access
  { member with
    isRequired := e.isRequired
    isVirtual := e.isVirtual
    isAbstract := e.isAbstract
    isReadOnly := e.isReadOnly
    isInitOnly := e.isInitOnly
    attributes := e.attributes
    getter := e.getter.getD member.getter
    setter := e.setter.getD member.setter }

/-- The description of an entry. -/
def describe (m : Manifest) (e : TypeEntry) : TypeDesc :=
  let d : TypeDesc := { (TypeDesc.ofName e.name).withKind e.typeKind with
    isRecord := e.isRecord
    accessibility := e.access
    attributes := e.attributes
    interfaces := e.interfaces.map TypeDesc.ofName
    generics := e.generics.map TypeDesc.ofName
    containing := e.containing.map ContainingEntry.toDesc
    members := e.members.map (m.memberOf e.toRef) }
  let d := match e.ns with
    | some ns => d.withNamespace ns
    | none => d
  let d := match e.base with
    | some base => d.withBase (.ofName base)
    | none => d
  d.withModifiers e.modifiers

end Manifest

/-! ### Specifications -/

/-- The lines of a documentation comment. -/
def docLines (doc : String) : List String :=
  ["/// <summary>"] ++
    (Text.lines (Text.trim doc)).map (fun l => "/// " ++ Text.trim l) ++
    ["/// </summary>"]

/-- A specification with a documentation comment that leads the target. -/
def TypeSpec.withDoc (s : TypeSpec) (doc : String) : TypeSpec :=
  match s.declarations with
  | [] => s
  | target :: rest =>
    { s with declarations := ("\n".intercalate (docLines doc) ++ "\n" ++ target) :: rest }

/-- A result whose failure is that of writing a file. -/
def emitting {α : Type} (target : String) (r : Except Failure α) : Except ManifestError α :=
  r.mapError (.emission target)

namespace Manifest

/-- The specification of an entry, all entries of other names beside it. -/
def specOf (m : Manifest) (e : TypeEntry) : Except ManifestError TypeSpec := do
  let others := (m.types.filter (·.name != e.name)).map fun o => Descriptor.ref o.toRef
  let spec ← emitting e.name (TypeSpec.ofDesc (m.describe e) others)
  return match e.doc with
    | some doc => spec.withDoc doc
    | none => spec

/-- All types of a manifest under their names. -/
def siblings (m : Manifest) : Siblings :=
  Catalog.ofList (m.types.map fun e => (e.name, .ref e.toRef))

/-- The settings of all files. -/
def settings (m : Manifest) : Except ManifestError Settings := do
  let indent ← emitting "options.indent" m.options.indent.indent
  let file := m.options.file
  return {
    file := { file with assembly := m.generator.or file.assembly }
    suffix := m.options.suffix.getD ".g.cs"
    indent }

end Manifest

/-! ### Files -/

/-- The emitter that an entry asks for by a word. -/
def BodyKind.builtin : BodyKind → Builtin
  | properties => .properties
  | equatable => .equatable

/-- A snippet of an entry; without a name it is called by its place. -/
def SnippetEntry.toSnippet (e : SnippetEntry) (place : Nat) : Snippet where
  name := e.name.getD ("snippet" ++ toString (place + 1))
  text := e.text
  outerUsings := e.outerUsings
  innerUsings := e.innerUsings
  attributes := e.attributes
  interfaces := e.interfaces

/-- The emitters of an entry in order. -/
def TypeEntry.builtins (e : TypeEntry) : List Builtin :=
  e.emitters.map BodyKind.builtin ++
    e.snippets.mapIdx fun place s => .snippet (s.toSnippet place)

/-- The file emitter of an entry. -/
def TypeEntry.fileEmitter (e : TypeEntry) (settings : Settings) : FileEmitter :=
  e.builtins.foldl (fun f b => f.add b.emitter) { settings }

namespace Manifest

/-- The file of an entry beside its siblings. -/
def fileOf (m : Manifest) (settings : Settings) (siblings : Siblings) (e : TypeEntry) :
    Except ManifestError SourceFile := do
  let spec ← m.specOf e
  emitting e.name ((e.fileEmitter settings).generate spec siblings)

/-- The files of all entries. -/
def generate (m : Manifest) : Except ManifestError Collection := do
  let settings ← m.settings
  let siblings := m.siblings
  m.types.foldlM (fun c e => do
    let file ← m.fileOf settings siblings e
    return c.register file) .empty

end Manifest

end SharpSource
