import SharpSource.Text.Basic

/-!
# Paths

A path is a text of parts between slashes. Several texts have the same parts: a
slash may be doubled or stand at the end, and a dot that is not the very first
part says nothing. Paths are joined and shown as texts, unchanged, but compared
by their parts.
-/

namespace SharpSource.Path

/-- Whether a path starts at the root. -/
def isAbsolute (path : String) : Bool :=
  path.toList.head? == some '/'

/-- A path below a directory; an absolute one stays where it is. -/
def join (dir path : String) : String :=
  if isAbsolute path || dir = "" then path
  else if dir.toList.getLast? = some '/' then dir ++ path
  else dir ++ "/" ++ path

/-- One part of a path: its text, and where it starts and stops, in
characters. -/
structure Part where
  text : String
  start : Nat
  stop : Nat
  deriving DecidableEq, Repr

/-- The parts among the pieces between slashes, the first of which starts at a
place. A dot counts only when `first` tells that it comes first. -/
def partsFrom : (start : Nat) → (first : Bool) → List (List Char) → List Part
  | _, _, [] => []
  | start, first, piece :: rest =>
    let stop := start + piece.length
    let others := partsFrom (stop + 1) false rest
    if piece.isEmpty || (piece == ['.'] && !first) then others
    else ⟨String.ofList piece, start, stop⟩ :: others

/-- The parts of a path. The root is a part of its own. -/
def parts (path : String) : List Part :=
  let pieces := Text.pieces (· == '/') path.toList
  if isAbsolute path then ⟨"/", 0, 1⟩ :: partsFrom 1 false (pieces.drop 1)
  else partsFrom 0 true pieces

/-- The path without its last part; none for the root and for a path without
parts. -/
def parent? (path : String) : Option String :=
  match (parts path).reverse with
  | [] => none
  | [part] => if part.text = "/" then none else some ""
  | _ :: part :: _ => some (String.ofList (path.toList.take part.stop))

/-- What follows some parts in a list of parts that starts so. -/
def partsAfter? : List Part → List Part → Option (List Part)
  | [], ps => some ps
  | _ :: _, [] => none
  | b :: bs, p :: ps => if b.text = p.text then partsAfter? bs ps else none

/-- A path relative to a directory that it lies in. -/
def relativeTo? (dir path : String) : Option String :=
  (partsAfter? (parts dir) (parts path)).map fun rest =>
    match rest.head?, rest.getLast? with
    | some first, some last =>
      String.ofList ((path.toList.take last.stop).drop first.start)
    | _, _ => ""

end SharpSource.Path
