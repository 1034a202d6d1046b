import SharpSource.Command.Arguments
import SharpSource.Command.Report
import SharpSource.Manifest.Open
import SharpSource.Manifest.Plan

/-!
# Commands

What a command line does to a disk, and what it prints. Both commands read a
manifest and generate its files; `check` reports on the types, and `bake` writes
the files, or shows them. An error of the manifest or of writing ends in code 1,
a command line that makes no sense in code 2, a broken contract in code 101, and
none of them prints anything.
-/

namespace SharpSource.Command

/-- What a run ends in: its code, and what it has printed. -/
structure Answer where
  code : Nat
  stdout : String
  deriving DecidableEq, Repr

/-- The answer to a failure. -/
def failed : Answer := ⟨1, ""⟩

/-- The answer of a report. -/
def reported (lines : List String) : Answer := ⟨0, Report.print lines⟩

/-- The answer to an error of a manifest. -/
def rejected (e : ManifestError) : Answer :=
  if e.isBroken then ⟨101, ""⟩ else failed

namespace Arguments

/-- The path of the manifest. -/
def configPath (a : Arguments) : String :=
  a.config.getD "csgen.toml"

/-- The directory that files are written below. -/
def outputDir (a : Arguments) : String :=
  a.output.getD "."

/-- What happens to files that are there already. -/
def overwrite (a : Arguments) : Overwrite :=
  if .skipExisting ∈ a.switches then .ifMissing else .always

end Arguments

/-- Writes the files of a collection, or only shows them. Files that are written
side by side come in the order of a schedule. -/
def bakeBy (schedule : List SourceFile) (a : Arguments) (files : Collection) (d : Disk) :
    Except ExportError Report.Baked × Disk :=
  if .dryRun ∈ a.switches then (.ok ⟨files.size, .preview files.files⟩, d)
  else
    let (outcome, d) :=
      if .parallel ∈ a.switches then files.exportBy schedule a.outputDir a.overwrite d
      else files.exportTo a.outputDir a.overwrite d
    (outcome.map fun results => ⟨files.size, .ofResults a.outputDir results⟩, d)

/-- Writes the files of a collection by a schedule of the program's own choice,
or only shows them. -/
def bakeCollection (a : Arguments) (files : Collection) (d : Disk) :
    Except ExportError Report.Baked × Disk :=
  bakeBy files.files a files d

/-- Runs a command on the files of a manifest. -/
def runVerb (verb : Verb) (a : Arguments) (m : OpenManifest) (files : Collection) (d : Disk) :
    Answer × Disk :=
  match verb with
  | .check => (reported (Report.check m.path m.manifest files), d)
  | .bake =>
    match bakeCollection a files d with
    | (.ok baked, d) => (reported (Report.bake baked), d)
    | (.error _, d) => (failed, d)

/-- Does what a command line asks for. -/
def run (args : List String) (d : Disk) : Answer × Disk :=
  match parse args with
  | .usage => (⟨2, ""⟩, d)
  | .version => (⟨0, "csgen 0.5.0\n"⟩, d)
  | .help => (⟨0, ""⟩, d)
  | .run verb a =>
    match OpenManifest.read d a.configPath with
    | .error e => (rejected e, d)
    | .ok m =>
      match m.manifest.generate with
      | .error e => (rejected e, d)
      | .ok files => runVerb verb a m files d

end SharpSource.Command
