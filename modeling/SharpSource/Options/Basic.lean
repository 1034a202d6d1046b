import SharpSource.Indent

/-!
# Options

How a file is laid out and what it has besides the declared type. Options come
in three layers, each holding the one before it: those of any file, those of a
file that is put together by emitters, and the settings that add the name of
the file and its indentation.
-/

namespace SharpSource

/-- An assembly and its version. -/
structure Assembly where
  name : String
  version : String
  deriving DecidableEq, Repr, Inhabited

/-- The line that marks a type as generated by an assembly. -/
def Assembly.marker (a : Assembly) : String :=
  "[global::System.CodeDom.Compiler.GeneratedCodeAttribute(\"" ++ a.name ++ "\", \"" ++
    a.version ++ "\")]"

/-- The options of any file. -/
structure LayoutOptions where
  /-- The text at the top, instead of the usual comment. -/
  header : Option String := none
  nullableAnnotations : Bool := true
  nullableWarnings : Bool := false
  /-- Whether a namespace is declared for the file, as opposed to a block. -/
  fileScopedNamespace : Bool := false
  /-- The number of empty lines between the sections of a file. -/
  sectionSpacing : Nat := 1
  /-- The warnings that the file turns off. -/
  suppressedWarnings : List String := []
  /-- The using directives above the namespace. -/
  outerUsings : List String := []
  /-- The using directives inside the namespace. -/
  innerUsings : List String := []
  deriving DecidableEq, Repr, Inhabited

/-- The options of a file that emitters put together. -/
structure FileOptions extends LayoutOptions where
  /-- The number of empty lines between the texts of two emitters. -/
  emitterSpacing : Nat := 1
  /-- The assembly to mark the target with. -/
  assembly : Option Assembly := none
  /-- The base type of a target that declares none. -/
  baseType : Option String := none
  /-- Whether emitters without options of their own take these. -/
  shareOptions : Bool := true
  /-- Whether all attributes stand in one pair of brackets. -/
  combineAttributes : Bool := false
  /-- The attributes of every target. -/
  attributes : List String := []
  /-- The interfaces of every target. -/
  interfaces : List String := []
  deriving DecidableEq, Repr, Inhabited

/-- The options of a file, how its name ends, and how it is indented. -/
structure Settings where
  file : FileOptions := {}
  /-- What the name of a file has behind the name of its target. -/
  suffix : String := ".g.cs"
  indent : Indent := .spaces
  deriving DecidableEq, Inhabited

/-! ### Options in diagnostics -/

/-- A flag in diagnostics. -/
def describeFlag (b : Bool) : String :=
  if b then "true" else "false"

/-- An optional value in diagnostics, from that of the value. -/
def describeOption {α : Type} (describe : α → String) : Option α → String
  | some a => "Some(" ++ describe a ++ ")"
  | none => "None"

/-- A record in diagnostics: its name, and its fields in order. -/
def describeRecord (name : String) (fields : List (String × String)) : String :=
  name ++ " \x7b " ++ ", ".intercalate (fields.map fun f => f.1 ++ ": " ++ f.2) ++ " \x7d"

/-- An assembly in diagnostics. -/
def Assembly.describe (a : Assembly) : String :=
  describeRecord "AssemblyName" [("name", Text.quoted a.name), ("version", Text.quoted a.version)]

/-- The options of any file in diagnostics. -/
def LayoutOptions.describe (o : LayoutOptions) : String :=
  describeRecord "BaseOptions" [
    ("source_file_header", describeOption Text.quoted o.header),
    ("enable_nullable_annotations", describeFlag o.nullableAnnotations),
    ("enable_nullable_warnings", describeFlag o.nullableWarnings),
    ("use_file_scoped_namespace", describeFlag o.fileScopedNamespace),
    ("blank_lines_between_declarations", toString o.sectionSpacing),
    ("suppress_warnings", Text.quotedList o.suppressedWarnings),
    ("default_outer_using_directives", Text.quotedList o.outerUsings),
    ("default_inner_using_directives", Text.quotedList o.innerUsings)]

/-- The options of a file in diagnostics. -/
def FileOptions.describe (o : FileOptions) : String :=
  describeRecord "FileEmitterOptions" [
    ("base", o.toLayoutOptions.describe),
    ("blank_lines_between_code_emitters", toString o.emitterSpacing),
    ("assembly_name", describeOption Assembly.describe o.assembly),
    ("default_base_type", describeOption Text.quoted o.baseType),
    ("inject_options_on_code_emitters", describeFlag o.shareOptions),
    ("use_combined_attribute_declaration", describeFlag o.combineAttributes),
    ("default_attributes", Text.quotedList o.attributes),
    ("default_interfaces", Text.quotedList o.interfaces)]

/-- Settings in diagnostics. -/
def Settings.describe (s : Settings) : String :=
  describeRecord "TypeFileEmitterOptions" [
    ("file", s.file.describe),
    ("file_name_suffix", Text.quoted s.suffix),
    ("indent", s.indent.describe)]

end SharpSource
