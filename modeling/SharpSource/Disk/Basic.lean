import SharpSource.Disk.Path
import SharpSource.Entries

/-!
# Disks

A disk is a tree of directories and files, given by what stands at each place,
a place being the names from the root down to it. The root is always a
directory. A path that is not absolute starts at the working directory; a dot
stays where it is and two dots go up, but only in a directory that is there. A
path that no disk takes, being too long or holding a zero, leads nowhere.

Of an operation on a disk it matters what it leaves behind even when it fails,
so each gives back the disk along with its outcome.
-/

namespace SharpSource

/-- The names from the root of a disk down to a place. -/
abbrev Place := List String

/-- What can stand at a place. -/
inductive Node where
  | directory
  | file (content : String)
  deriving DecidableEq, Repr

/-- Directories and files, and the directory that paths start from. -/
structure Disk where
  /-- What stands at the places below the root, each place once. -/
  nodes : List (Place × Node) := []
  /-- The directory that paths start from. -/
  workingDir : Place := []
  deriving Repr

namespace Disk

/-! ### Places -/

/-- What stands at a place. -/
def at? (d : Disk) (place : Place) : Option Node :=
  if place = [] then some .directory else Entries.get? place d.nodes

/-- The disk with something at a place. -/
def put (d : Disk) (place : Place) (node : Node) : Disk :=
  { d with nodes := Entries.put place node d.nodes }

/-- After something was put at a place, it stands there, and all else as
before. -/
theorem at?_put {d : Disk} {place q : Place} {node : Node} (h : place ≠ []) :
    (d.put place node).at? q = if q = place then some node else d.at? q := by
  by_cases hq : q = []
  · subst hq
    simp [at?, h.symm]
  · simp [at?, put, hq, Entries.get?_put_entries]

/-! ### Walking -/

/-- The steps of a path: the names between its slashes. A path that ends in a
slash has a last step that stays where it is. -/
def steps (path : String) : List String :=
  let pieces := Text.pieces (· == '/') path.toList
  let named := (pieces.filter (!·.isEmpty)).map String.ofList
  if path.toList.getLast? = some '/' then named ++ ["."] else named

/-- The place that a path starts from. -/
def origin (d : Disk) (path : String) : Place :=
  if Path.isAbsolute path then [] else d.workingDir

/-- Whether a directory can hold something under a name, which has at most 255
bytes. -/
def isName (name : String) : Bool :=
  name.utf8ByteSize ≤ 255

/-- Whether a text is taken for a path: it has at least one byte and at most
4095, and none is zero. -/
def isPath (path : String) : Bool :=
  path != "" && path.utf8ByteSize ≤ 4095 && !path.toList.contains '\x00'

/-- The place that a step leads to from a place, which has to be a directory. -/
def step? (d : Disk) (place : Place) (name : String) : Option Place :=
  match d.at? place, isName name with
  | some .directory, true =>
    some (if name = "." then place else if name = ".." then place.dropLast else place ++ [name])
  | _, _ => none

/-- The place that steps lead to; it need not be there itself. -/
def walk? (d : Disk) (place : Place) (names : List String) : Option Place :=
  names.foldlM d.step? place

/-- The place that a path leads to. -/
def resolve? (d : Disk) (path : String) : Option Place :=
  if isPath path then d.walk? (d.origin path) (steps path) else none

/-! ### Operations -/

/-- Whether there is anything where a path leads to. -/
def exists? (d : Disk) (path : String) : Bool :=
  match d.resolve? path with
  | some place => (d.at? place).isSome
  | none => false

/-- The text of the file that a path leads to. -/
def read? (d : Disk) (path : String) : Option String := do
  let place ← d.resolve? path
  match d.at? place with
  | some (.file content) => some content
  | _ => none

/-- Goes along steps from a place and makes the directories that are missing.
The outcome tells whether there is a directory at the end. -/
def makeDirs : List String → Place → Disk → Bool × Disk
  | [], place, d => (d.at? place == some .directory, d)
  | name :: names, place, d =>
    match d.step? place name with
    | none => (false, d)
    | some next =>
      match d.at? next with
      | some _ => makeDirs names next d
      | none => makeDirs names next (d.put next .directory)

/-- Makes the directory that a path leads to, and those above it; the empty path
is there already. -/
def createDirAll (d : Disk) (path : String) : Bool × Disk :=
  if path = "" then (true, d)
  else if isPath path then makeDirs (steps path) (d.origin path) d
  else (false, d)

/-- Whether the last step of a path names something, as opposed to a directory
known otherwise. -/
def endsInName (path : String) : Bool :=
  match (steps path).getLast? with
  | some name => name != "." && name != ".."
  | none => false

/-- Writes a text into the file that a path leads to, making the file if it is
missing. -/
def write (d : Disk) (path content : String) : Bool × Disk :=
  match d.resolve? path with
  | none => (false, d)
  | some place =>
    if !endsInName path || d.at? place == some .directory then (false, d)
    else (true, d.put place (.file content))

/-! ### Listing -/

/-- The files below a place, by their paths from there, in ascending order of
these. -/
def filesBelow (d : Disk) (place : Place) : List (String × String) :=
  let files := d.nodes.filterMap fun e =>
    match e.2 with
    | .file content =>
      if place.isPrefixOf e.1 then some ("/".intercalate (e.1.drop place.length), content) else none
    | .directory => none
  files.mergeSort fun a b => !decide (b.1 < a.1)

/-- The disk with files below its working directory. -/
def ofFiles (workingDir : Place) (files : List (String × String)) : Disk :=
  let top : Disk := { workingDir, nodes := [] }
  let start := (makeDirs workingDir [] top).2
  files.foldl (fun d f =>
    let d := ((Path.parent? f.1).map d.createDirAll).elim d (·.2)
    (d.write f.1 f.2).2) start

end Disk

end SharpSource
