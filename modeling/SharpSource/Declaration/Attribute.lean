import SharpSource.Text.Basic

/-!
# Attributes

An attribute may be given bare (`Obsolete`) or as sections in brackets
(`[A][B]`), with blanks around and between them. `Attribute.normalize` takes
the brackets away and gives back the contents, one attribute for each section;
a text whose brackets do not match is one attribute as it stands.

Inside a section, brackets nest, and a string literal hides those it holds.
-/

namespace SharpSource.Attribute

mutual

/-- Reads sections from inside `depth` brackets, with what has been read of the
outermost one held in reverse. Outside all brackets only blanks may stand. -/
def sectionsFrom : (depth : Nat) → (content : List Char) → List Char → Option (List (List Char))
  | 0, _, [] => some []
  | _ + 1, _, [] => none
  | 0, _, c :: cs =>
    if c = '[' then sectionsFrom 1 [] cs
    else if c ≠ ']' ∧ Text.isBlank c = true then sectionsFrom 0 [] cs
    else none
  | depth + 1, content, c :: cs =>
    if c = '"' then literalFrom (depth + 1) (c :: content) cs
    else if c = '[' then sectionsFrom (depth + 2) (c :: content) cs
    else if c = ']' then
      match depth with
      | 0 => (sectionsFrom 0 [] cs).map (content.reverse :: ·)
      | depth + 1 => sectionsFrom (depth + 1) (c :: content) cs
    else sectionsFrom (depth + 1) (c :: content) cs

/-- Reads the rest of a string literal, in which a backslash hides the character
behind it, and then goes on with the sections around it. -/
def literalFrom : (depth : Nat) → (content : List Char) → List Char → Option (List (List Char))
  | _, _, [] => none
  | depth, content, c :: cs =>
    if c = '"' then sectionsFrom depth (c :: content) cs
    else if c = '\\' then
      match cs with
      | [] => none
      | e :: cs => literalFrom depth (e :: c :: content) cs
    else literalFrom depth (c :: content) cs

end

/-- The contents of the sections that a text consists of, in order; none when it
is no sequence of sections. -/
def sections? (s : String) : Option (List String) :=
  (sectionsFrom 0 [] s.toList).map (·.map String.ofList)

/-- The attributes that a text stands for, each trimmed and without brackets. -/
def normalize (s : String) : List String :=
  let s := Text.trim s
  match (if Text.startsWith "[" s then sections? s else none) with
  | some contents => Text.trimmedNonempty contents
  | none => if s = "" then [] else [s]

end SharpSource.Attribute
