import SharpSource.Disk.Export
import SharpSource.Manifest.Basic

/-!
# Reports

What the commands print: the types that a manifest declares, or the files that
were written for them. A report is a list of lines, one of which may hold line
feeds of its own.
-/

namespace SharpSource.Report

/-! ### The lines of a report -/

/-- The heading of a list. -/
def heading (name : String) : String :=
  name ++ ":"

/-- An item of a list. -/
def item (text : String) : String :=
  "  - " ++ text

/-- An item that is new. -/
def added (text : String) : String :=
  "  + " ++ text

/-- A line between two parts of a report. -/
def divider (label : String) : String :=
  "── " ++ label ++ " ──"

/-- A number of things, the word in the plural unless there is one. -/
def counted (n : Nat) (word : String) : String :=
  toString n ++ " " ++ word ++ (if n = 1 then "" else "s")

/-- The text of a report. -/
def print (lines : List String) : String :=
  String.join (lines.map (· ++ "\n"))

/-! ### Checking -/

/-- The word for the kind of an entry. -/
def kindLabel (e : TypeEntry) : String :=
  let kind := Text.lowerAll e.typeKind.name
  if !e.isRecord then kind
  else if kind = "class" then "record"
  else "record " ++ kind

/-- What a report says about an entry and its file. -/
def typeSummary (e : TypeEntry) (fileName : String) : String :=
  e.fullName ++ " (" ++ kindLabel e ++ ", " ++ counted e.members.length "member" ++ "; " ++
    (if e.emitters.isEmpty then "no emitters"
      else ", ".intercalate (e.emitters.map BodyKind.name)) ++
    ") -> " ++ fileName

/-- The report on a manifest and the files that it generates. -/
def check (path : String) (m : Manifest) (files : Collection) : List String :=
  let paired := m.types.zip files.names
  ["✓ " ++ path ++ " is valid", "", heading (counted paired.length "type")] ++
    paired.map fun p => item (typeSummary p.1 p.2)

/-! ### Writing -/

/-- What came of generated files. -/
inductive Outcome where
  /-- The files that would be written, with their texts. -/
  | preview (files : List SourceFile)
  /-- The files that were written below a directory, and those that were there
  already, by their paths from that directory. -/
  | done (dir : String) (written skipped : List String)
  deriving DecidableEq, Repr

/-- The paths of results from the directory that they lie in. -/
def relativePaths (dir : String) (results : List WriteResult) : List String :=
  results.map fun r => (Path.relativeTo? dir r.path).getD r.path

/-- What came of files that were written below a directory. -/
def Outcome.ofResults (dir : String) (results : List WriteResult) : Outcome :=
  .done dir (relativePaths dir (results.filter (·.isWritten)))
    (relativePaths dir (results.filter (!·.isWritten)))

/-- What is told of generated files. -/
structure Baked where
  /-- How many files were generated. -/
  fileCount : Nat
  /-- What came of them. -/
  outcome : Outcome
  deriving DecidableEq, Repr

/-- The report on generated files. -/
def bake (b : Baked) : List String :=
  match b.outcome with
  | .preview files =>
    files.flatMap (fun f => [divider f.name, f.content]) ++
      [divider "Summary", toString files.length ++ " files would be generated"]
  | .done dir written skipped =>
    ["Generated: " ++ toString written.length ++ " of " ++ toString b.fileCount ++ " files in " ++
        dir] ++
      written.map added ++
      (if skipped.isEmpty then []
        else ["", heading "Skipped (already exist)"] ++ skipped.map item)

end SharpSource.Report
