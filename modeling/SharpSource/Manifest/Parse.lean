import SharpSource.Manifest.Schema
import SharpSource.Manifest.Validation
import SharpSource.Toml.Reader

/-!
# From text to manifest

A manifest is read in three steps, each of which can fail: the text is a
document, the document is a manifest, and the manifest is valid.
-/

namespace SharpSource

open Document

/-- What keeps a text from being read as values of some type. -/
inductive ReadError where
  /-- The text is no document. -/
  | malformed
  /-- The document does not hold such a value. -/
  | fault (f : Fault)
  deriving DecidableEq, Repr

/-- Reads a value from the text of a document. -/
def readDocument {α : Type} (d : Decoder α) (source : String) : Except ReadError α :=
  match Toml.read? source with
  | none => .error .malformed
  | some v => (d v).mapError .fault

namespace Manifest

/-- Reads a manifest without checking it. -/
def ofText (source : String) : Except ReadError Manifest :=
  readDocument schema.decode source

/-- Reads a manifest and checks it; `file` is the name that errors mention. -/
def parse (source file : String) : Except ManifestError Manifest := do
  let m ← (ofText source).mapError fun
    | .malformed => .syntaxError file
    | .fault f => .badData file f
  m.validate source file
  return m

end Manifest

end SharpSource
