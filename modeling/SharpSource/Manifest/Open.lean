import SharpSource.Disk.Basic
import SharpSource.Manifest.Parse

/-!
# Manifests on disk

A manifest is usually a file, and is then known by the path that it was read
from.
-/

namespace SharpSource

/-- A manifest with the file it was read from. -/
structure OpenManifest where
  path : String
  content : String
  manifest : Manifest
  deriving Repr

namespace OpenManifest

/-- Reads and checks the manifest that a path leads to. -/
def read (d : Disk) (path : String) : Except ManifestError OpenManifest :=
  match d.read? path with
  | none => .error (.unreadable path)
  | some content => do
    let manifest ← Manifest.parse content path
    return { path, content, manifest }

/-- The directory that the manifest is in. -/
def baseDir (m : OpenManifest) : String :=
  (Path.parent? m.path).getD "."

end OpenManifest

end SharpSource
