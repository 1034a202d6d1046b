import SharpSource.TypeDesc

/-!
# Changing descriptions

A description is built by one change after the other. Each of them sets one
thing about it and leaves the rest. What is remembered stays, unless the change
is one of the two that the qualified names depend on
(`TypeDesc.Change.renames`).

A change may bring other types along. These are descriptions here, and cells of
a pool where descriptions are kept in place, so what they are is left open.
-/

namespace SharpSource.TypeDesc

/-- The marks that a type may have. -/
inductive Flag where
  | record
  | static
  | abstract
  | sealed
  | readOnly
  | partialType
  deriving DecidableEq, Repr

/-- The lists of types that a description is built from. -/
inductive Part where
  | bases
  | interfaces
  | generics
  | containing
  deriving DecidableEq, Repr

/-- **A change** to a description. The types that come with it are of any
sort. -/
inductive Change (δ : Type) where
  | name (s : String)
  /-- The namespace; a blank one is the global namespace. -/
  | ns (s : String)
  /-- The kind, which decides whether instances are values. -/
  | kind (k : TypeKind)
  | special (t : SpecialType)
  | accessibility (a : Accessibility)
  | isValue (on : Bool)
  | flag (flag : Flag) (on : Bool)
  | attributes (texts : List String)
  | members (ms : List Member)
  | part (p : Part) (types : List δ)
  deriving Repr

namespace Change

variable {δ : Type}

/-- The facts about a type after a change. -/
def facts (c : Change δ) (f : TypeFacts) : TypeFacts :=
  match c with
  | name s => { f with name := s }
  | ns s => { f with ns := if Text.isBlankText s then none else some s }
  | kind k => { f with kind := k, isValue := k.isValue }
  | special t => { f with special := t }
  | accessibility a => { f with accessibility := a }
  | isValue on => { f with isValue := on }
  | flag .record on => { f with isRecord := on }
  | flag .static on => { f with isStatic := on }
  | flag .abstract on => { f with isAbstract := on }
  | flag .sealed on => { f with isSealed := on }
  | flag .readOnly on => { f with isReadOnly := on }
  | flag .partialType on => { f with isPartial := on }
  | attributes texts => { f with attributes := texts }
  | members ms => { f with members := ms }
  | part _ _ => f

/-- A list of types after a change: the one that the change is about is set, the
others stay. -/
def types (c : Change δ) (p : Part) (old : List δ) : List δ :=
  match c with
  | part q types => if q = p then types else old
  | _ => old

/-- Whether the qualified names depend on what is changed. -/
def renames : Change δ → Bool
  | name _ | ns _ => true
  | _ => false

/-- What is remembered after a change: nothing when it renames the type, and
else all that was. -/
def names (c : Change δ) (remembered : RememberedNames) : RememberedNames :=
  if c.renames then {} else remembered

end Change

/-- **The description after a change.** -/
def change (d : TypeDesc) (c : Change TypeDesc) : TypeDesc where
  toTypeFacts := c.facts d.toTypeFacts
  bases := c.types .bases d.bases
  interfaces := c.types .interfaces d.interfaces
  generics := c.types .generics d.generics
  containing := c.types .containing d.containing
  remembered := c.names d.remembered

variable (d : TypeDesc)

theorem change_name (name : String) : d.change (.name name) = d.withName name := rfl

theorem change_ns (ns : String) : d.change (.ns ns) = d.withNamespace ns := rfl

theorem change_kind (kind : TypeKind) : d.change (.kind kind) = d.withKind kind := rfl

theorem change_bases_singleton (base : TypeDesc) :
    d.change (.part .bases [base]) = d.withBase base := rfl

end SharpSource.TypeDesc
