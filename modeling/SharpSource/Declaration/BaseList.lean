import SharpSource.Text.Basic

/-!
# Base lists

A declaration may end in a **base list**, a colon and the types that are
extended and implemented, and after that in constraints, which start with the
word `where`. `BaseList.extend` adds to the list, or starts one, and leaves
everything else of the declaration in its place.

Brackets of any shape hide the colons and commas between them, and a doubled
colon belongs to a name.
-/

namespace SharpSource.BaseList

/-- The depth of brackets behind a character, given the depth before it. -/
def depthAfter (depth : Nat) (c : Char) : Nat :=
  if c = '<' ∨ c = '(' ∨ c = '[' then depth + 1
  else if c = '>' ∨ c = ')' ∨ c = ']' then depth - 1
  else depth

/-- The characters before and after the first colon outside of brackets with no
colon next to it. -/
def splitColon : (depth : Nat) → (afterColon : Bool) → List Char → Option (List Char × List Char)
  | _, _, [] => none
  | depth, afterColon, c :: cs =>
    if c = ':' ∧ depth = 0 ∧ afterColon = false ∧ cs.head? ≠ some ':' then some ([], cs)
    else (splitColon (depthAfter depth c) (c == ':') cs).map fun r => (c :: r.1, r.2)

/-- The pieces between the commas outside of brackets. -/
def entries : (depth : Nat) → List Char → List (List Char)
  | _, [] => [[]]
  | depth, c :: cs =>
    if c = ',' ∧ depth = 0 then [] :: entries 0 cs
    else match entries (depthAfter depth c) cs with
      | [] => [[c]]
      | w :: ws => (c :: w) :: ws

/-- The entries of the base list of a head, trimmed; none when the head has no
base list. -/
def ofHead? (head : List Char) : Option (List String) :=
  (splitColon 0 false head).map fun r =>
    (entries 0 r.2).map (String.ofList ∘ Text.trimChars)

/-- What is written behind a head to give it a base type and interfaces. A head
with a base list takes the interfaces that it does not list yet, and no base
type. -/
def addition (head : List Char) (base : Option String) (interfaces : List String) : String :=
  match ofHead? head with
  | some listed => String.join ((interfaces.filter (!listed.contains ·)).map (", " ++ ·))
  | none =>
    match Text.trimmedNonempty base.toList ++ interfaces with
    | [] => ""
    | list => " : " ++ ", ".intercalate list

/-- A declaration cut in front of its constraints. -/
def cutConstraints (declaration : List Char) : List Char × List Char :=
  match Text.breakAt? " where ".toList declaration with
  | some (head, constraints) => (head, " where ".toList ++ constraints)
  | none => (declaration, [])

/-- A declaration with a base type and interfaces added to its base list. -/
def extend (declaration : String) (base : Option String) (interfaces : List String) : String :=
  let (head, constraints) := cutConstraints declaration.toList
  String.ofList head ++ addition head base interfaces ++ String.ofList constraints

end SharpSource.BaseList
