import SharpSource.Document.Decode
import SharpSource.Options.Basic

/-!
# Options in documents

The keys under which a document gives the options of a file, all of them
optional. The keys of the file's own options are read first, those of its
layout after them; other keys are nobody's and do no harm.
-/

namespace SharpSource

open Document

/-- An assembly in a document. -/
def Assembly.schema : Schema Assembly where
  name := "AssemblyName"
  fields := [
    .of "name" readText (fun a r => { r with name := a }) true,
    .of "version" readText (fun a r => { r with version := a }) true]
  blank := { name := "", version := "" }
  others := some anything
  exactList := true

namespace FileOptions

/-- The keys of the options that a file has besides its layout. -/
def ownSchema : Schema FileOptions where
  name := "FileEmitterOptions"
  fields := [
    .of "blank_lines_between_code_emitters" readCount fun a r => { r with emitterSpacing := a },
    .of "assembly_name" (readOptional Assembly.schema.decode) fun a r => { r with assembly := a },
    .of "default_base_type" (readOptional readText) fun a r => { r with baseType := a },
    .of "inject_options_on_code_emitters" readFlag fun a r => { r with shareOptions := a },
    .of "use_combined_attribute_declaration" readFlag fun a r => { r with combineAttributes := a },
    .of "default_attributes" (readList readText) fun a r => { r with attributes := a },
    .of "default_interfaces" (readList readText) fun a r => { r with interfaces := a }]
  blank := {}
  others := some anything

/-- The keys of the options of the layout of a file; the others keep the values
they have. -/
def layoutSchema (o : FileOptions) : Schema FileOptions where
  name := "BaseOptions"
  fields := [
    .of "source_file_header" (readOptional readText) fun a r => { r with header := a },
    .of "enable_nullable_annotations" readFlag fun a r => { r with nullableAnnotations := a },
    .of "enable_nullable_warnings" readFlag fun a r => { r with nullableWarnings := a },
    .of "use_file_scoped_namespace" readFlag fun a r => { r with fileScopedNamespace := a },
    .of "blank_lines_between_declarations" readCount fun a r => { r with sectionSpacing := a },
    .of "suppress_warnings" (readList readText) fun a r => { r with suppressedWarnings := a },
    .of "default_outer_using_directives" (readList readText) fun a r => { r with outerUsings := a },
    .of "default_inner_using_directives" (readList readText) fun a r => { r with innerUsings := a }]
  blank := o
  others := some anything

/-- Reads the options of a file from the entries of a table. -/
def ofEntries (entries : List (Entry Value)) : Except Fault FileOptions := do
  let o ← ownSchema.ofEntries entries
  (layoutSchema o).ofEntries entries

/-- Reads the options of a file. -/
def decode : Decoder FileOptions := fun v =>
  locate v.span <|
    match v.value with
    | .table entries => ofEntries entries
    | _ => wrong v ("struct " ++ ownSchema.name)

end FileOptions

end SharpSource
