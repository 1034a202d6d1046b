import SharpSource.Manifest.Basic
import SharpSource.Options.Schema

/-!
# Manifests in documents

The keys of a manifest. Every table knows all of its keys and takes no others,
apart from the table of options: there the options of a file stand beside those
of the manifest, and are read after them, from whatever keys are left.
-/

namespace SharpSource

open Document

/-- The assembly of a manifest; its version has a default. -/
def Manifest.generatorSchema : Schema Assembly where
  name := "GeneratorConfig"
  fields := [
    .of "assembly" readText (fun a r => { r with name := a }) true,
    .of "version" readText fun a r => { r with version := a }]
  blank := { name := "", version := "1.0.0" }

/-- The indentation of a manifest. -/
def IndentConfig.schema : Schema IndentConfig where
  name := "IndentConfig"
  fields := [
    .of "style" (readWord IndentStyle.spellings) fun a r => { r with style := a },
    .of "width" (readOptional readCount) fun a r => { r with width := a }]
  blank := {}

namespace ManifestOptions

/-- The keys that the options of a manifest have besides those of a file. Values
under other keys only have to be sound. -/
def ownSchema : Schema ManifestOptions where
  name := "OptionsConfig"
  fields := [
    .of "file_name_suffix" (readOptional readText) fun a r => { r with suffix := a },
    .of "indent" IndentConfig.schema.decode fun a r => { r with indent := a }]
  blank := {}
  others := some anythingSized

/-- Reads the options of a manifest from the entries of a table. A fault in the
options of a file points nowhere in particular. -/
def ofEntries (entries : List (Entry Value)) : Except Fault ManifestOptions := do
  let o ← ownSchema.ofEntries entries
  let file ← (FileOptions.ofEntries entries).mapError Fault.nowhere
  return { o with file }

/-- Reads the options of a manifest. -/
def decode : Decoder ManifestOptions := fun v =>
  locate v.span <|
    match v.value with
    | .table entries => ofEntries entries
    | .moment _ => .ok {}
    | _ => wrong v ("struct " ++ ownSchema.name)

end ManifestOptions

/-- A member of an entry. -/
def MemberEntry.schema : Schema MemberEntry where
  name := "MemberEntry"
  fields := [
    .of "name" readText (fun a r => { r with name := a }) true,
    .of "type" readText (fun a r => { r with type := a }) true,
    .of "field" readFlag fun a r => { r with field := a },
    .of "accessibility" (readOptional (readWord Accessibility.spellings))
      (fun a r => { r with accessibility := a }) false true,
    .of "getter" (readOptional (readWord Accessibility.spellings))
      (fun a r => { r with getter := a }) false true,
    .of "setter" (readOptional (readWord Accessibility.spellings))
      (fun a r => { r with setter := a }) false true,
    .of "required" readFlag fun a r => { r with isRequired := a },
    .of "virtual" readFlag fun a r => { r with isVirtual := a },
    .of "abstract" readFlag fun a r => { r with isAbstract := a },
    .of "readonly" readFlag fun a r => { r with isReadOnly := a },
    .of "init" readFlag fun a r => { r with isInitOnly := a },
    .of "attributes" (readList readText) fun a r => { r with attributes := a }]
  blank := { name := "", type := "" }

/-- A snippet of an entry. -/
def SnippetEntry.schema : Schema SnippetEntry where
  name := "SnippetEntry"
  fields := [
    .of "name" (readOptional readText) (fun a r => { r with name := a }) false true,
    .of "text" readText (fun a r => { r with text := a }) true,
    .of "usings" (readList readText) fun a r => { r with outerUsings := a },
    .of "inner_usings" (readList readText) fun a r => { r with innerUsings := a },
    .of "attributes" (readList readText) fun a r => { r with attributes := a },
    .of "interfaces" (readList readText) fun a r => { r with interfaces := a }]
  blank := { text := "" }

/-- A type around an entry. -/
def ContainingEntry.schema : Schema ContainingEntry where
  name := "ContainingEntry"
  fields := [
    .of "name" readText (fun a r => { r with name := a }) true,
    .of "kind" (readOptional (readWord TypeKind.spellings))
      (fun a r => { r with kind := a }) false true,
    .of "record" readFlag fun a r => { r with isRecord := a },
    .of "accessibility" (readOptional (readWord Accessibility.spellings))
      (fun a r => { r with accessibility := a }) false true,
    .of "modifiers" (readList (readWord Modifier.spellings)) fun a r => { r with modifiers := a }]
  blank := { name := "" }

/-- An entry of a manifest. -/
def TypeEntry.schema : Schema TypeEntry where
  name := "TypeEntry"
  fields := [
    .of "name" readText (fun a r => { r with name := a }) true,
    .of "namespace" (readOptional readText) (fun a r => { r with ns := a }) false true,
    .of "kind" (readOptional (readWord TypeKind.spellings))
      (fun a r => { r with kind := a }) false true,
    .of "record" readFlag fun a r => { r with isRecord := a },
    .of "accessibility" (readOptional (readWord Accessibility.spellings))
      (fun a r => { r with accessibility := a }) false true,
    .of "modifiers" (readList (readWord Modifier.spellings)) fun a r => { r with modifiers := a },
    .of "base" (readOptional readText) (fun a r => { r with base := a }) false true,
    .of "interfaces" (readList readText) fun a r => { r with interfaces := a },
    .of "generics" (readList readText) fun a r => { r with generics := a },
    .of "attributes" (readList readText) fun a r => { r with attributes := a },
    .of "doc" (readOptional readText) (fun a r => { r with doc := a }) false true,
    .of "containing" (readList ContainingEntry.schema.decode) fun a r => { r with containing := a },
    .of "emitters" (readList (readWord BodyKind.spellings)) fun a r => { r with emitters := a },
    .of "members" (readList MemberEntry.schema.decode) fun a r => { r with members := a },
    .of "snippets" (readList SnippetEntry.schema.decode) fun a r => { r with snippets := a }]
  blank := { name := "" }

/-- A manifest. -/
def Manifest.schema : Schema Manifest where
  name := "Manifest"
  fields := [
    .of "generator" (readOptional Manifest.generatorSchema.decode)
      (fun a r => { r with generator := a }) false true,
    .of "options" ManifestOptions.decode fun a r => { r with options := a },
    .of "types" (readList TypeEntry.schema.decode) fun a r => { r with types := a }]
  blank := {}

end SharpSource
