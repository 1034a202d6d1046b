import SharpSource.Emitter.Equatable
import SharpSource.Emitter.Properties
import SharpSource.Emitter.Snippet

/-!
# The built-in emitters

The emitters that a manifest can ask for, as a type of their own: what is said
about every built-in emitter is proved by cases on it.
-/

namespace SharpSource

/-- An emitter that comes with the library. -/
inductive Builtin where
  | properties
  | equatable
  | snippet (s : Snippet)
  deriving DecidableEq, Repr

/-- The emitter that a built-in stands for. -/
def Builtin.emitter : Builtin → Emitter
  | properties => .properties
  | equatable => .equatable
  | snippet s => .snippet s

end SharpSource
