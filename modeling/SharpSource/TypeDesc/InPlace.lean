import SharpSource.TypeDesc.Change

/-!
# Descriptions in place

A description is not changed once it is there, but for the two names that it
remembers. These are written when they are first asked for, and the one who asks
may have come by the description in many ways: lists of types are shared by all
clones of the description that they are in, so the bases of one clone are those
of the other.

To see who shares what, descriptions are kept in a **pool** (`DescPool`). Each
has a cell of its own with its facts and the names that it remembers, and for
the types that it is built from it has the numbers of their cells. Reading a
name writes to a cell, and all who are built from it find the name there.
Changes and clones make new cells. What the cells stand for are descriptions
again (`DescPool.values`).
-/

namespace SharpSource

open TypeDesc (Change Part)

namespace TypeDesc

/-- The two qualified names. -/
inductive QualifiedName where
  /-- The name with the namespace in front. -/
  | type
  /-- The same from the root of all namespaces. -/
  | assembly
  deriving DecidableEq, Repr

/-- What a description is after one of its qualified names has been asked
for. -/
def remember (d : TypeDesc) : QualifiedName → TypeDesc
  | .type => d.rememberTypeName
  | .assembly => d.rememberAssemblyName

/-- The change with other types in it. -/
def Change.mapTypes {δ ε : Type} (f : List δ → List ε) : Change δ → Change ε
  | name s => .name s
  | ns s => .ns s
  | kind k => .kind k
  | special t => .special t
  | accessibility a => .accessibility a
  | isValue on => .isValue on
  | flag mark on => .flag mark on
  | attributes texts => .attributes texts
  | members ms => .members ms
  | part p types => .part p (f types)

end TypeDesc

/-! ### Cells -/

/-- The cell of a description. The types that it is built from are given by the
numbers of their cells. -/
structure DescCell extends TypeFacts where
  types : Part → List Nat := fun _ => []
  remembered : RememberedNames := {}

namespace DescCell

/-- The cell of a new description. -/
def ofName (name : String) : DescCell :=
  { name }

/-- The cell of a description after a change. -/
def change (cell : DescCell) (c : Change Nat) : DescCell where
  toTypeFacts := c.facts cell.toTypeFacts
  types p := c.types p (cell.types p)
  remembered := c.names cell.remembered

/-- What a cell stands for among the descriptions in the cells before it. -/
def desc (cell : DescCell) (before : List TypeDesc) : TypeDesc where
  toTypeFacts := cell.toTypeFacts
  bases := (cell.types .bases).filterMap (before[·]?)
  interfaces := (cell.types .interfaces).filterMap (before[·]?)
  generics := (cell.types .generics).filterMap (before[·]?)
  containing := (cell.types .containing).filterMap (before[·]?)
  remembered := cell.remembered

/-- The cell after one of the qualified names has been asked for. These do not
depend on the types that the description is built from. -/
def remember (cell : DescCell) (name : TypeDesc.QualifiedName) : DescCell :=
  { cell with remembered := ((cell.desc []).remember name).remembered }

end DescCell

/-! ### Pools -/

/-- **A pool** of descriptions, in the order in which they were made. -/
structure DescPool where
  cells : List DescCell := []

namespace DescPool

/-- **What the cells of a pool stand for.** -/
def values (pool : DescPool) : List TypeDesc :=
  pool.cells.foldl (fun before cell => before ++ [cell.desc before]) []

/-- The pool with another cell at its end. -/
def push (pool : DescPool) (cell : DescCell) : DescPool :=
  ⟨pool.cells ++ [cell]⟩

/-- Something that is done with descriptions, which go by the numbers of their
cells. -/
inductive Call where
  /-- A new description is made. -/
  | make (name : String)
  | clone (k : Nat)
  | change (k : Nat) (c : Change Nat)
  /-- A qualified name is asked for. -/
  | read (k : Nat) (name : TypeDesc.QualifiedName)

/-- The pool after a call. Where there is no description to clone or to change,
none is made, and a change only brings types along that there are. -/
def after (pool : DescPool) : Call → DescPool
  | .make name => pool.push (.ofName name)
  | .clone k => (pool.cells[k]?).elim pool pool.push
  | .change k c => (pool.cells[k]?).elim pool fun cell =>
    pool.push (cell.change (c.mapTypes (·.filter (· < pool.cells.length))))
  | .read k name => ⟨pool.cells.modify k (·.remember name)⟩

/-- The pool after several calls. -/
def run (pool : DescPool) (calls : List Call) : DescPool :=
  calls.foldl after pool

end DescPool

end SharpSource
