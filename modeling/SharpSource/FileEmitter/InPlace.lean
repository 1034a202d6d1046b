import SharpSource.FileEmitter

/-!
# File emitters in place

A file emitter is built once and used many times, and its slots are **cells that
are written once**: options are offered to a slot when its emitter is registered
and again whenever a file is generated, and it takes the first that it is
offered (`Slot.offer`).

So generation in place (`FileEmitter.generateInPlace`) has two results, the file
or the failure, and the file emitter as it is afterwards. The emitters are
consulted slot by slot, and a failure keeps what the slots before it took.
-/

namespace SharpSource

/-- The slot after options were offered to it: it takes them if it has none, and
keeps its own. -/
def Slot.offer (s : Slot) (options : FileOptions) : Slot :=
  { s with options := s.options.or (some options) }

namespace FileEmitter

/-! ### Generation -/

/-- The file of a target, put together by the emitters that take part in it. -/
def assemble (f : FileEmitter) (spec : TypeSpec) (target : String) (containing : List String)
    (ps : List Participant) : Except Failure SourceFile := do
  let o := f.settings.file
  let outer ← Using.block (o.outerUsings ++ contributions Emitter.outerUsings ps)
  let inner ← innerUsings o spec ps
  let w ← f.writeBody ps (f.writeHead spec ps outer inner target containing)
  return ⟨f.nameOf spec, w.closeAll.text⟩

/-- Consults the emitters of some slots in order. Where options are shared,
those of the file are offered to each slot on the way; a slot without options
ends it, whether or not its emitter would have taken part. -/
def consult (f : FileEmitter) (spec : TypeSpec) (siblings : Siblings) :
    List Slot → List Slot × Except Failure (List Participant)
  | [] => ([], .ok [])
  | slot :: slots =>
    let slot := if f.settings.file.shareOptions then slot.offer f.settings.file else slot
    match slot.options with
    | none => (slot :: slots, .error (.missingOptions slot.emitter.name))
    | some options =>
      let p : Participant := ⟨slot.emitter, ⟨spec, options, siblings⟩⟩
      let (slots, rest) := f.consult spec siblings slots
      (slot :: slots, rest.map fun ps => if p.emitter.accepts p.context then p :: ps else ps)

/-- Generates the file of a target in place. -/
def generateInPlace (f : FileEmitter) (spec : TypeSpec) (siblings : Siblings) :
    FileEmitter × Except Failure SourceFile :=
  match spec.declarations with
  | [] => (f, .error (.noDeclarations spec.targetName))
  | target :: containing =>
    let (slots, outcome) := f.consult spec siblings f.slots
    ({ f with slots }, outcome >>= f.assemble spec target containing)

/-- Generates files for one target after the other in place, as long as none
fails, and registers them. -/
def populateInPlace (f : FileEmitter) (siblings : Siblings) :
    List TypeSpec → Collection → FileEmitter × Collection × Except Failure Nat
  | [], c => (f, c, .ok 0)
  | spec :: specs, c =>
    match f.generateInPlace spec siblings with
    | (f, .error e) => (f, c, .error e)
    | (f, .ok file) =>
      let (f, c, outcome) := populateInPlace f siblings specs (c.register file)
      (f, c, outcome.map (· + 1))

/-! ### A life -/

/-- Something that is done with a file emitter. -/
inductive Call where
  /-- An emitter is registered. -/
  | add (e : Emitter)
  /-- An emitter is registered with options of its own. -/
  | addWith (e : Emitter) (options : FileOptions)
  /-- A file is generated. -/
  | generate (spec : TypeSpec) (siblings : Siblings)
  /-- A collection is populated. -/
  | populate (siblings : Siblings) (specs : List TypeSpec) (c : Collection)

/-- The file emitter after a call. -/
def Call.after (f : FileEmitter) : Call → FileEmitter
  | add e => f.add e
  | addWith e options => f.addWith e options
  | generate spec siblings => (f.generateInPlace spec siblings).1
  | populate siblings specs c => (f.populateInPlace siblings specs c).1

/-- The file emitter after some calls, whatever they came to. -/
def live (f : FileEmitter) (calls : List Call) : FileEmitter :=
  calls.foldl Call.after f

/-- What some calls register: each emitter with the options that it was given
explicitly. -/
def registered : List Call → List Slot
  | [] => []
  | .add e :: calls => ⟨e, none⟩ :: registered calls
  | .addWith e options :: calls => ⟨e, some options⟩ :: registered calls
  | .generate .. :: calls => registered calls
  | .populate .. :: calls => registered calls

end FileEmitter

end SharpSource
