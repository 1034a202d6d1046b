import SharpSource.Emitter.Builtin
import SharpSource.Writer.InPlace

/-!
# Built-in emitters in place

Whoever hands a writer to an emitter gets it back after a failure as well, with
whatever the emitter wrote before it. So the built-in emitters are told a second
time as programs that work a writer **in place** (`Builtin.writeInPlace`), one
operation after the other.

The programs differ from the functions in what a failure leaves behind. A member
without a declaration fails below its own attributes, and behind all members
before it. And the blocks of an equatable type are closed by an operation that
can fail, wherever it is called.
-/

namespace SharpSource

open Writer (Work closeBlockInPlace)

/-- Writes a member in place: first its attributes, and then its declaration, if
it has one. -/
def Member.writeInPlace (m : Member) : Work Unit := do
  m.attributes.forM fun a => modify (·.line ("[" ++ a ++ "]"))
  match m.declaration with
  | .ok declared => modify (·.line declared)
  | .error e => throw e

/-- Writes what makes a described type equatable in place. -/
def Emitter.writeEquatableInPlace (ctx : Context) (d : TypeDesc) : Work Unit := do
  let self := d.genericName
  let mark := if ctx.options.nullableAnnotations then "?" else ""
  let otherMark := if d.isValue then "" else mark
  modify (·.line ("public bool Equals(" ++ self ++ otherMark ++ " other)"))
  modify (·.openBlock)
  (if d.isValue then [] else referenceChecks).forM fun l => modify (·.line l)
  modify fun w => w.line (comparisonStatement w.indent ctx.spec.members)
  closeBlockInPlace
  modify (·.blankLine)
  modify (·.line ("public override bool Equals(object" ++ mark ++ " obj) => obj is " ++ self ++
    " other && Equals(other);"))
  modify (·.blankLine)
  modify (·.line "public override int GetHashCode()")
  modify (·.openBlock)
  modify (·.line "var hash = new global::System.HashCode();")
  ctx.spec.members.forM fun m => modify (·.line ("hash.Add(" ++ m.token ++ ");"))
  modify (·.line "return hash.ToHashCode();")
  closeBlockInPlace

/-- Writes a snippet in place. -/
def Snippet.writeInPlace (s : Snippet) : Work Unit := do
  let text := Text.trimEnd s.text
  unless text = "" do
    modify (·.line text)

/-- **A built-in emitter in place.** -/
def Builtin.writeInPlace (b : Builtin) (ctx : Context) : Work Unit :=
  match b with
  | properties => ctx.spec.members.forM Member.writeInPlace
  | equatable =>
    match Emitter.equatableTarget? ctx.spec with
    | some d => Emitter.writeEquatableInPlace ctx d
    | none => pure ()
  | snippet s => s.writeInPlace

end SharpSource
