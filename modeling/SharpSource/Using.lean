import SharpSource.Failure
import SharpSource.Text.Basic

/-!
# Using directives

A using directive may be given as a bare namespace or as a whole directive, with
blanks around it, and all of these mean the same. `Using.normalize` writes the
directive out; `Using.block` makes a block of directives, each once, the longer
ones first.
-/

namespace SharpSource.Using

/-- Whether a text already has the word that a directive starts with. -/
def hasKeyword (s : String) : Bool :=
  Text.startsWith "using " s || Text.startsWith "global using " s

/-- The directive for a namespace or a directive. -/
def normalize (input : String) : Except Failure String :=
  let s := Text.trim input
  if s = "" then .error .blankUsing
  else
    let s := if hasKeyword s then s else "using " ++ s
    .ok (if s.toList.getLast? = some ';' then s else s ++ ";")

/-- Whether a directive may stand before another: it is at least as long, in
bytes. -/
def notShorter (a b : String) : Bool :=
  b.utf8ByteSize ≤ a.utf8ByteSize

/-- The directives for a list of namespaces and directives: each once, the
longer ones first, those of one length in the order in which they appear. -/
def block (inputs : List String) : Except Failure (List String) := do
  let directives ← inputs.mapM normalize
  return (Text.distinct directives).mergeSort notShorter

end SharpSource.Using
