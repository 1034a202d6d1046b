import SharpSource.Disk.Basic
import SharpSource.SourceFile

/-!
# Writing files to disk

A generated file is written below a directory, under its own name; directories
that are missing on the way are made. Files that are there already are
overwritten or **skipped**, as asked. The files of a collection are written in
the order of their registration, up to the first that fails, or by any other
**schedule**; the outcomes are listed in the order of registration all the same.
-/

namespace SharpSource

/-- What happens to files that are there already. -/
inductive Overwrite where
  | always
  | ifMissing
  deriving DecidableEq, Repr, Inhabited

/-- What happened to a file, and the path it is at. -/
inductive WriteResult where
  | written (path : String)
  | skipped (path : String)
  deriving DecidableEq, Repr

/-- The path that a result is about. -/
def WriteResult.path : WriteResult → String
  | written path | skipped path => path

/-- Whether a file was written. -/
def WriteResult.isWritten : WriteResult → Bool
  | written _ => true
  | skipped _ => false

/-- Why a file could not be written. -/
inductive ExportError where
  /-- A directory could not be made. -/
  | create (path : String)
  /-- The file itself could not be written. -/
  | write (path : String)
  deriving DecidableEq, Repr

/-- The wording of an export error. -/
def ExportError.message : ExportError → String
  | create path => "failed to create '" ++ path ++ "'"
  | write path => "failed to write '" ++ path ++ "'"

namespace Disk

/-- Writes a file and the directories on the way to it. -/
def writeFile (d : Disk) (path content : String) : Except ExportError Unit × Disk :=
  let dir := (Path.parent? path).getD ""
  match d.createDirAll dir with
  | (false, d) => (.error (.create dir), d)
  | (true, d) =>
    match d.write path content with
    | (false, d) => (.error (.write path), d)
    | (true, d) => (.ok (), d)

/-- Writes a generated file below a directory. -/
def writeEntry (d : Disk) (dir : String) (how : Overwrite) (file : SourceFile) :
    Except ExportError WriteResult × Disk :=
  let path := Path.join dir file.name
  if how = .ifMissing ∧ d.exists? path = true then (.ok (.skipped path), d)
  else
    let (outcome, d) := d.writeFile path file.content
    (outcome.map fun _ => .written path, d)

/-- Writes generated files below a directory, one after the other, up to the
first that fails. -/
def writeEntries (dir : String) (how : Overwrite) : List SourceFile → Disk →
    Except ExportError (List WriteResult) × Disk
  | [], d => (.ok [], d)
  | file :: files, d =>
    match d.writeEntry dir how file with
    | (.error e, d) => (.error e, d)
    | (.ok result, d) =>
      let (outcome, d) := writeEntries dir how files d
      (outcome.map (result :: ·), d)

end Disk

namespace Collection

/-- The files of a collection in the order of registration. -/
def files (c : Collection) : List SourceFile :=
  c.entries.map fun e => ⟨e.1, e.2⟩

/-- Writes the files of a collection in the order of registration. -/
def exportTo (c : Collection) (dir : String) (how : Overwrite) (d : Disk) :
    Except ExportError (List WriteResult) × Disk :=
  d |> Disk.writeEntries dir how c.files

/-- Writes the files of a collection by a schedule, and lists the outcomes in
the order of registration. -/
def exportBy (schedule : List SourceFile) (c : Collection) (dir : String) (how : Overwrite)
    (d : Disk) : Except ExportError (List WriteResult) × Disk :=
  let (outcome, d) := Disk.writeEntries dir how schedule d
  let listed := outcome.map fun results =>
    let named := schedule.zip results
    c.files.filterMap fun file => (named.find? (·.1.name == file.name)).map (·.2)
  (listed, d)

/-- Writes the files of a collection by a schedule of the program's own
choice. -/
def exportParallel (c : Collection) (dir : String) (how : Overwrite) (d : Disk) :
    Except ExportError (List WriteResult) × Disk :=
  c.exportBy c.files dir how d

end Collection

end SharpSource
