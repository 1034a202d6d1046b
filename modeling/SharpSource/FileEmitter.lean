import SharpSource.Declaration.Attribute
import SharpSource.Declaration.BaseList
import SharpSource.Declaration.Leading
import SharpSource.Emitter.Basic
import SharpSource.SourceFile
import SharpSource.Using

/-!
# Files

A `FileEmitter` turns a specification into a source file. The file is laid out
from the top as header, nullable directives, suppressed warnings, outer usings,
namespace, inner usings, the declarations around the target, the lines that
lead the target's declaration, attributes, the declaration itself, and the
body, to which the emitters contribute in the order of their registration.

Everything that can fail is settled in a fixed order: the options of the
emitters, the outer usings, the inner usings, and then the bodies.
-/

namespace SharpSource

/-- An emitter with the options that it was given. -/
structure Slot where
  emitter : Emitter
  /-- Options of its own, or those of the file, or none. -/
  options : Option FileOptions

/-- An emitter that takes part in a file, and what it sees. -/
structure Participant where
  emitter : Emitter
  context : Context

/-- Settings, and the emitters that put a file together under them. -/
structure FileEmitter where
  settings : Settings := {}
  slots : List Slot := []
  /-- How the name of a file is made, when not from the name of the target. -/
  fileName : Option (TypeSpec → String) := none

namespace FileEmitter

/-! ### Registration -/

/-- Registers an emitter; it takes the options of the file where these are
shared. -/
def add (f : FileEmitter) (e : Emitter) : FileEmitter :=
  let options := if f.settings.file.shareOptions then some f.settings.file else none
  { f with slots := f.slots ++ [⟨e, options⟩] }

/-- Registers an emitter with options of its own, which it keeps. -/
def addWith (f : FileEmitter) (e : Emitter) (options : FileOptions) : FileEmitter :=
  { f with slots := f.slots ++ [⟨e, some options⟩] }

/-- The names of the emitters in order. -/
def emitterNames (f : FileEmitter) : List String :=
  f.slots.map (·.emitter.name)

/-- The options of the emitter at a place. -/
def optionsAt? (f : FileEmitter) (i : Nat) : Option FileOptions :=
  (f.slots[i]?).bind (·.options)

/-! ### Taking part -/

/-- The emitter in a slot with its context. Without options of its own it takes
those of the file, and fails where these are not shared. -/
def participant (f : FileEmitter) (spec : TypeSpec) (siblings : Siblings) (slot : Slot) :
    Except Failure Participant :=
  match slot.options, f.settings.file.shareOptions with
  | some options, _ => .ok ⟨slot.emitter, ⟨spec, options, siblings⟩⟩
  | none, true => .ok ⟨slot.emitter, ⟨spec, f.settings.file, siblings⟩⟩
  | none, false => .error (.missingOptions slot.emitter.name)

/-- The emitters that take part in the file of a target, in order. Options are
settled for all of them before any of them may decline. -/
def participants (f : FileEmitter) (spec : TypeSpec) (siblings : Siblings) :
    Except Failure (List Participant) := do
  let all ← f.slots.mapM (f.participant spec siblings)
  return all.filter fun p => p.emitter.accepts p.context

/-- What the participants contribute of one sort, in order. -/
def contributions (part : Emitter → Context → List String) (ps : List Participant) : List String :=
  ps.flatMap fun p => part p.emitter p.context

/-! ### Sections -/

/-- The comment at the top of a file without a header of its own. -/
def defaultHeader : String := "// <auto-generated/>"

/-- The word that turns something on or off. -/
def switchWord (on : Bool) : String :=
  if on then "enable" else "disable"

/-- Writes the header, the nullable directives and the suppressed warnings. -/
def writePreamble (o : FileOptions) (w : Writer) : Writer :=
  let w := (w.line (o.header.getD defaultHeader)).blankLine
  let w := w.line ("#nullable " ++ switchWord o.nullableAnnotations ++ " annotations")
  let w := w.line ("#nullable " ++ switchWord o.nullableWarnings ++ " warnings")
  let w := w.blankLines o.sectionSpacing
  if o.suppressedWarnings.isEmpty then w
  else
    (w.line ("#pragma warning disable " ++ ", ".intercalate o.suppressedWarnings)).blankLines
      o.sectionSpacing

/-- Writes a block of using directives; an empty one leaves no trace. -/
def writeUsings (o : FileOptions) (directives : List String) (w : Writer) : Writer :=
  if directives.isEmpty then w
  else (w.line ("\n".intercalate directives)).blankLines o.sectionSpacing

/-- Writes what a namespace starts with: a directive for the file, or a
block. -/
def writeNamespace (o : FileOptions) (ns : String) (w : Writer) : Writer :=
  if o.fileScopedNamespace then
    (w.line ("namespace " ++ ns ++ ";")).blankLines o.sectionSpacing
  else (w.line ("namespace " ++ ns)).openBlock

/-- Writes the namespace of a target and the usings inside it; a target of the
global namespace has neither. -/
def writeScope (o : FileOptions) (ns : Option String) (inner : List String) (w : Writer) : Writer :=
  match ns with
  | some ns => writeUsings o inner (writeNamespace o ns w)
  | none => w

/-- Opens the blocks of the types around a target, the outermost first. -/
def openContaining (declarations : List String) (w : Writer) : Writer :=
  declarations.reverse.foldl (fun w d => (w.line d).openBlock) w

/-- The attributes of a target: those of the options, of the specification and
of the participants, normalized and each once. -/
def attributesOf (o : FileOptions) (spec : TypeSpec) (ps : List Participant) : List String :=
  Text.distinct <|
    (o.attributes ++ spec.attributes ++ contributions Emitter.attributes ps).flatMap
      Attribute.normalize

/-- The lines that attributes are written on: one for each, or one for all. -/
def attributeLines (o : FileOptions) (attributes : List String) : List String :=
  if attributes.isEmpty then []
  else if o.combineAttributes then ["[" ++ ", ".intercalate attributes ++ "]"]
  else attributes.map fun a => "[" ++ a ++ "]"

/-- The interfaces that a target is given: those of the options and of the
participants, trimmed and each once. -/
def interfacesOf (o : FileOptions) (ps : List Participant) : List String :=
  Text.distinct (Text.trimmedNonempty (o.interfaces ++ contributions Emitter.interfaces ps))

/-- Writes the target up to the brace that opens its body. -/
def writeTarget (o : FileOptions) (spec : TypeSpec) (ps : List Participant) (target : String)
    (w : Writer) : Writer :=
  let (leading, declaration) := Declaration.splitLeading target
  let w := w.lines leading.toList
  let w := w.lines (attributeLines o (attributesOf o spec ps))
  let w := w.lines (o.assembly.map Assembly.marker).toList
  (w.line (BaseList.extend declaration o.baseType (interfacesOf o ps))).openBlock

/-- Writes the bodies of the participants. Empty lines stand between two of them
that both write something; `started` tells whether one before has. -/
def writeBodies (spacing : Nat) : (started : Bool) → List Participant → Writer →
    Except Failure Writer
  | _, [], w => .ok w
  | started, p :: ps, w => do
    let spaced := if started then w.blankLines spacing else w
    let written ← p.emitter.write p.context spaced
    if written.size = spaced.size then writeBodies spacing started ps (written.rollback w)
    else writeBodies spacing true ps written

/-! ### Generation -/

/-- The name of the file of a target. -/
def nameOf (f : FileEmitter) (spec : TypeSpec) : String :=
  match f.fileName with
  | some name => name spec
  | none => spec.targetName ++ f.settings.suffix

/-- The inner usings of a target. Outside of a namespace there are none, and
none are looked at. -/
def innerUsings (o : FileOptions) (spec : TypeSpec) (ps : List Participant) :
    Except Failure (List String) :=
  match spec.ns with
  | some _ => Using.block (o.innerUsings ++ contributions Emitter.innerUsings ps)
  | none => .ok []

/-- Everything above the body of a target, and its opening brace. -/
def writeHead (f : FileEmitter) (spec : TypeSpec) (ps : List Participant)
    (outer inner : List String) (target : String) (containing : List String) : Writer :=
  let o := f.settings.file
  let w : Writer := { indent := f.settings.indent }
  let w := writeUsings o outer (writePreamble o w)
  let w := writeScope o spec.ns inner w
  writeTarget o spec ps target (openContaining containing w)

/-- Writes the bodies of the participants, as many empty lines between them as
the file has; the options of the participants do not count. -/
def writeBody (f : FileEmitter) (ps : List Participant) (w : Writer) : Except Failure Writer :=
  writeBodies f.settings.file.emitterSpacing false ps w

/-- The file of a target. -/
def generate (f : FileEmitter) (spec : TypeSpec) (siblings : Siblings) :
    Except Failure SourceFile :=
  match spec.declarations with
  | [] => .error (.noDeclarations spec.targetName)
  | target :: containing => do
    let o := f.settings.file
    let ps ← f.participants spec siblings
    let outer ← Using.block (o.outerUsings ++ contributions Emitter.outerUsings ps)
    let inner ← innerUsings o spec ps
    let w ← f.writeBody ps (f.writeHead spec ps outer inner target containing)
    return ⟨f.nameOf spec, w.closeAll.text⟩

/-- Generates files for one target after the other, as long as none fails, and
registers them. The outcome tells how many there were. -/
def populate (f : FileEmitter) (siblings : Siblings) :
    List TypeSpec → Collection → Collection × Except Failure Nat
  | [], c => (c, .ok 0)
  | spec :: specs, c =>
    match f.generate spec siblings with
    | .error e => (c, .error e)
    | .ok file =>
      let (c, outcome) := populate f siblings specs (c.register file)
      (c, outcome.map (· + 1))

/-- A file emitter in diagnostics. -/
def describe (f : FileEmitter) : String :=
  describeRecord "FileEmitter" [
    ("options", f.settings.describe),
    ("emitters", Text.quotedList f.emitterNames),
    ("file_name", describeFlag f.fileName.isSome)]

end FileEmitter

end SharpSource
