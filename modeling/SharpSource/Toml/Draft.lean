import SharpSource.Document.Value

/-!
# Tables under construction

A table of TOML may be written in several places: under its own header, by the
headers of tables inside it, by keys with dots. A **draft** remembers for every
table how it came to be, because that decides what may still be added:

* a table with a header of its own takes no second header, and no dotted key
  from outside;
* a table that headers of inner tables imply may still get its header, and keys
  with dots may lead through it, but not end in it;
* a table that dotted keys make may get more of those, and headers of inner
  tables, but none of its own;
* an array of tables is led through to its last table, which is like an implied
  one to keys with dots;
* a value, an inline table included, is finished.
-/

namespace SharpSource.Toml

open Document

/-- How a table came to be. -/
inductive Origin where
  | header
  | implied
  | dotted
  deriving DecidableEq, Repr

/-- What stands under a key so far. -/
inductive Draft where
  | value (v : Located Value)
  | table (span : Span) (origin : Origin) (fields : List (Located String × Draft))
  /-- The tables of an array, the last of which is still open. -/
  | tables (span : Span) (items : List (Span × List (Located String × Draft)))

/-- The keys of a table so far. -/
abbrev Fields := List (Located String × Draft)

namespace Fields

/-- Changes what stands under a key, or adds the key; the change sees what
stands there now and may refuse. -/
def modify (key : Located String) (change : Option Draft → Option Draft) : Fields → Option Fields
  | [] => do
    let d ← change none
    some [(key, d)]
  | (k, d) :: rest =>
    if k.value = key.value then do
      let d ← change (some d)
      some ((k, d) :: rest)
    else (modify key change rest).map ((k, d) :: ·)

/-- Moves a key to another place of the text where it is written. -/
def rekey (key : Located String) (fields : Fields) : Fields :=
  fields.map fun (k, d) => if k.value = key.value then (key, d) else (k, d)

/-- Changes the last of a list of tables. -/
def modifyLast (change : Fields → Option Fields) : List (Span × Fields) →
    Option (List (Span × Fields))
  | [] => none
  | [(span, fields)] => do
    let fields ← change fields
    some [(span, fields)]
  | item :: rest => (modifyLast change rest).map (item :: ·)

/-- Changes the table that a path of headers leads to; tables on the way that
are not there yet are implied. -/
def descend (change : Fields → Option Fields) : List (Located String) → Fields → Option Fields
  | [], fields => change fields
  | key :: path, fields =>
    fields.modify key fun
      | none => (descend change path []).map (.table key.span .implied)
      | some (.table span origin inner) => (descend change path inner).map (.table span origin)
      | some (.tables span items) => (modifyLast (descend change path) items).map (.tables span)
      | some (.value _) => none

/-- Adds a value under a key with dots: a path, and the last part of the key. -/
def insert (key : Located String) (v : Located Value) : List (Located String) → Fields →
    Option Fields
  | [], fields =>
    fields.modify key fun
      | none => some (.value v)
      | some _ => none
  | part :: path, fields =>
    fields.modify part fun
      | none => (insert key v path []).map (.table part.span .dotted)
      | some (.table span origin inner) =>
        if origin = .dotted ∨ origin = .implied ∧ path ≠ [] then
          (insert key v path inner).map (.table span origin)
        else none
      | some (.tables span items) =>
        if path ≠ [] then (modifyLast (insert key v path) items).map (.tables span) else none
      | some (.value _) => none

/-- Opens the table of a header. A table that was implied so far has its key
there from now on. -/
def openTable (span : Span) (key : Located String) (path : List (Located String))
    (fields : Fields) : Option Fields :=
  fields.descend (fun parent =>
    (parent.modify key fun
      | none => some (.table span .header [])
      | some (.table _ .implied inner) => some (.table span .header inner)
      | some _ => none).map (rekey key)) path

/-- Opens another table of an array. -/
def openItem (span : Span) (key : Located String) (path : List (Located String))
    (fields : Fields) : Option Fields :=
  fields.descend (fun parent =>
    parent.modify key fun
      | none => some (.tables span [(span, [])])
      | some (.tables first items) => some (.tables first (items ++ [(span, [])]))
      | some _ => none) path

end Fields

/-! ### Finished tables -/

mutual

/-- The value that a draft ends up as. -/
def Draft.finish : Draft → Located Value
  | .value v => v
  | .table span _ fields => ⟨span, .table (sortEntries (finishFields fields))⟩
  | .tables span items => ⟨span, .list (finishItems items)⟩

/-- The entries that the keys of a table end up as, before they are put in
order. -/
def finishFields : List (Located String × Draft) → List (Entry Value)
  | [] => []
  | (key, d) :: rest => ⟨key, d.finish⟩ :: finishFields rest

/-- The items that the tables of an array end up as. -/
def finishItems : List (Span × List (Located String × Draft)) → List (Located Value)
  | [] => []
  | (span, fields) :: rest =>
    ⟨span, .table (sortEntries (finishFields fields))⟩ :: finishItems rest

end

/-- The table that its keys end up as. -/
def Fields.toValue (fields : Fields) : Value :=
  .table (sortEntries (finishFields fields))

end SharpSource.Toml
