import SharpSource.Text.Basic

/-!
# Leading lines

The declaration of a target may have several lines. The last one declares; the
ones before it (comments, directives) **lead**, and are written above the
attributes.
-/

namespace SharpSource.Declaration

/-- The characters before the last line feed and those after it. -/
def cutLastLine (cs : List Char) : Option (List Char) × List Char :=
  match cs.reverse.dropWhile (· != '\n') with
  | [] => (none, cs)
  | _ :: before => (some before.reverse, (cs.reverse.takeWhile (· != '\n')).reverse)

/-- The leading lines of a declaration, joined by line feeds alone, and the line
that declares. The declaration is taken without the blanks it ends in. -/
def splitLeading (declaration : String) : Option String × String :=
  let (leading, last) := cutLastLine (Text.dropBlankEnd declaration.toList)
  (leading.map fun cs =>
    "\n".intercalate <| (Text.lines (String.ofList cs)).map fun l =>
      String.ofList (Text.dropFinals '\r' l.toList),
    String.ofList (Text.dropFinals '\r' last))

end SharpSource.Declaration
