import SharpSource.Entries

/-!
# Catalogs

A catalog holds values under names, in the order in which the names were first
put. Putting a name again replaces its value and keeps its place, so every name
stands in the catalog once. Two catalogs are **alike** when they hold the same
values under the same names, in whatever order.
-/

namespace SharpSource

/-- Values under names, in the order of their first appearance. -/
structure Catalog (α : Type) where
  /-- The names and values. -/
  entries : List (String × α) := []
  nodup : (entries.map (·.1)).Nodup := by simp
  deriving Repr

namespace Catalog

variable {α : Type}

/-- The catalog that holds nothing. -/
def empty : Catalog α := {}

instance : Inhabited (Catalog α) := ⟨empty⟩

/-- The names of a catalog. -/
def names (c : Catalog α) : List String :=
  c.entries.map (·.1)

/-! ### Putting -/

/-- The catalog with a value under a name. -/
def put (c : Catalog α) (name : String) (value : α) : Catalog α :=
  ⟨Entries.put name value c.entries, Entries.nodup_map_fst_put c.nodup⟩

/-- The catalog with values put one after the other. -/
def putAll (c : Catalog α) (items : List (String × α)) : Catalog α :=
  items.foldl (fun c e => c.put e.1 e.2) c

/-- The catalog of a list of names and values. -/
def ofList (items : List (String × α)) : Catalog α :=
  empty.putAll items

theorem names_put (c : Catalog α) (name : String) (value : α) :
    (c.put name value).names = if name ∈ c.names then c.names else c.names ++ [name] :=
  Entries.map_fst_put name value c.entries

/-! ### Looking up -/

/-- The value under a name. -/
def get? (c : Catalog α) (name : String) : Option α :=
  Entries.get? name c.entries

/-- After a value was put under a name, it is found there, and all else as
before. -/
theorem get?_put (c : Catalog α) (name other : String) (value : α) :
    (c.put name value).get? other = if other = name then some value else c.get? other :=
  Entries.get?_put_entries name other value c.entries

/-- Whether a catalog has a name. -/
def contains (c : Catalog α) (name : String) : Bool :=
  (c.get? name).isSome

/-- How many names a catalog has. -/
def size (c : Catalog α) : Nat :=
  c.entries.length

/-- Whether two catalogs hold the same values under the same names. -/
def alike [BEq α] (a b : Catalog α) : Bool :=
  a.size == b.size && a.entries.all fun e => b.get? e.1 == some e.2

end Catalog

end SharpSource
