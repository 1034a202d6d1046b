/-!
# Fingerprints

A **fingerprint** is the sequence of tokens that a hash of a value is computed
from. What matters about it is one law: values that compare equal have the same
fingerprint, so that a table keyed by hashes finds them. Lists put their length
in front, and an optional value a token that tells whether it is there, so that
the pieces of a fingerprint cannot run into each other.
-/

namespace SharpSource

/-- One unit that a hash is fed. -/
inductive HashToken where
  | text (s : String)
  | count (n : Nat)
  | flag (b : Bool)
  deriving DecidableEq, Repr

/-- The fingerprint of a list, from those of its elements. -/
def fingerprintList {α : Type} (item : α → List HashToken) (items : List α) : List HashToken :=
  .count items.length :: items.flatMap item

/-- The fingerprint of an optional text. -/
def fingerprintOption : Option String → List HashToken
  | none => [.flag false]
  | some s => [.flag true, .text s]

end SharpSource
