import SharpSource.Command.Run

/-!
# The program

`main` runs a command line on the machine. All of the work is done by
`Command.run` on a `Disk`; the program copies onto a disk what a run looks at,
and writes back what the run has changed. What a run looks at are the manifest
and the files it writes, and a first run on the manifest alone tells the latter.
-/

namespace SharpSource.Program

/-- The path of a place from the root. -/
def absolutePath (place : Place) : String :=
  "/" ++ "/".intercalate place

/-- The files of a disk that another disk does not have. -/
def newFiles (before after : Disk) : List (Place × String) :=
  after.nodes.filterMap fun e =>
    match e.2 with
    | .file content => if before.at? e.1 = some e.2 then none else some (e.1, content)
    | .directory => none

/-- The text of a file of the machine. -/
def read? (path : String) : IO (Option String) := do
  try
    return some (← IO.FS.readFile path)
  catch _ => return none

/-- The text of a file of the machine; of anything else that is there, an empty
one. -/
def look? (path : String) : IO (Option String) := do
  if let some content ← read? path then
    return some content
  try
    let _ ← IO.FS.realPath path
    return some ""
  catch _ => return none

/-- The files of the machine that are there. -/
def present (look : String → IO (Option String)) (paths : List String) :
    IO (List (String × String)) :=
  paths.filterMapM fun path => do
    return (← look path).map fun content => (path, content)

/-- The paths of the manifests that a command line names. -/
def manifestPaths (args : List String) : List String :=
  match Command.parse args with
  | .run _ a => [a.configPath]
  | _ => []

/-- Writes a file of the machine, and the directories on the way to it. -/
def writeFile (place : Place) (content : String) : IO Unit := do
  IO.FS.createDirAll (absolutePath place.dropLast)
  IO.FS.writeFile (absolutePath place) content

end SharpSource.Program

open SharpSource in
/-- Runs a command line on the machine. -/
def main (args : List String) : IO UInt32 := do
  let here := (Disk.steps (← IO.currentDir).toString)
  let manifests ← Program.present Program.read? (Program.manifestPaths args)
  let bare := Disk.ofFiles here manifests
  let places := (Program.newFiles bare (Command.run args bare).2).map (·.1)
  let others ← Program.present Program.look? (places.map Program.absolutePath)
  let disk := Disk.ofFiles here (manifests ++ others)
  let (answer, after) := Command.run args disk
  try
    for (place, content) in Program.newFiles disk after do
      Program.writeFile place content
  catch _ => return 1
  IO.print answer.stdout
  return UInt32.ofNat answer.code
