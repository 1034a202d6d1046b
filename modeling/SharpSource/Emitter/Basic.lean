import SharpSource.Catalog
import SharpSource.Options.Basic
import SharpSource.TypeSpec
import SharpSource.Writer

/-!
# Emitters

An emitter contributes to the file of a target: using directives, attributes,
interfaces, and a piece of the body. It may also decline a target, and then
contributes nothing at all. What it contributes depends on its **context**: the
specification of the target, the options that the emitter works with, and the
types that are generated beside it.
-/

namespace SharpSource

/-- The types that are generated together, under their names. -/
abbrev Siblings := Catalog Descriptor

/-- What an emitter sees. -/
structure Context where
  /-- The specification of the target. -/
  spec : TypeSpec
  /-- The options that the emitter works with. -/
  options : FileOptions
  /-- The types that are generated beside the target. -/
  siblings : Siblings

/-- A part of a file that contributes to the body of its target. -/
structure Emitter where
  /-- The name that failures mention. -/
  name : String
  /-- Whether the emitter takes part for a target. -/
  accepts : Context → Bool := fun _ => true
  /-- The using directives it needs above the namespace. -/
  outerUsings : Context → List String := fun _ => []
  /-- The using directives it needs inside the namespace. -/
  innerUsings : Context → List String := fun _ => []
  /-- The attributes it gives the target. -/
  attributes : Context → List String := fun _ => []
  /-- The interfaces it makes the target implement. -/
  interfaces : Context → List String := fun _ => []
  /-- Writes its piece of the body, between the braces of the target. -/
  write : Context → Writer → Except Failure Writer

end SharpSource
