import SharpSource.Fingerprint

/-!
# Shared arrays

The lists of a description are stored once and shared by all copies of it. A
`SharedArray` is such a list together with the **place** where it is stored; a
list without elements is stored nowhere.

Two arrays at one place are the same list, so comparing them needs no look at
the elements (`SharedArray.beqWith`). That is right because of how places come
about: a `Heap` takes the elements of each array that is made, at a new place
(`Heap.create`), and what it has taken stays. An array **lives** in a heap when
its elements are those at its place (`SharedArray.LivesIn`).
-/

namespace SharpSource

/-- A list that is stored once and shared by its copies. -/
inductive SharedArray (α : Type) where
  /-- The array without elements. -/
  | empty
  /-- The elements at a place. -/
  | stored (place : Nat) (elements : List α)
  deriving Repr, Inhabited

namespace SharedArray

variable {α : Type}

/-- The elements in order. -/
def elements : SharedArray α → List α
  | empty => []
  | stored _ xs => xs

/-- The number of elements. -/
def size (a : SharedArray α) : Nat :=
  a.elements.length

/-- Whether the array is stored nowhere. -/
def isEmpty : SharedArray α → Bool
  | empty => true
  | stored .. => false

/-- Equality of arrays, for some equality of their elements: at one place they
are equal, and elsewhere when the elements are, one by one in order. -/
def beqWith (eq : α → α → Bool) : SharedArray α → SharedArray α → Bool
  | stored p xs, stored q ys => p == q || xs.isEqv ys eq
  | a, b => a.elements.isEqv b.elements eq

/-- The tokens that a hash of an array is fed, which know nothing of places. -/
def fingerprintWith (item : α → List HashToken) (a : SharedArray α) : List HashToken :=
  fingerprintList item a.elements

end SharedArray

/-- What is stored for arrays of one sort: lists of elements at the places 0, 1,
and so on. -/
structure Heap (α : Type) where
  cells : List (List α)
  /-- A list without elements takes no place. -/
  nonempty : ∀ xs ∈ cells, xs ≠ []

/-- The heap that nothing is stored in. -/
def Heap.blank {α : Type} : Heap α where
  cells := []
  nonempty _ h := absurd h List.not_mem_nil

/-- Makes an array of some elements. They are stored at the next place, unless
there are none. -/
def Heap.create {α : Type} (h : Heap α) (xs : List α) : SharedArray α × Heap α :=
  if hxs : xs = [] then (.empty, h)
  else
    (.stored h.cells.length xs,
      { cells := h.cells ++ [xs]
        nonempty := fun ys hys => (List.mem_append.mp hys).elim (h.nonempty ys) fun hlast =>
          List.mem_singleton.mp hlast ▸ hxs })

/-- A heap **grows** into another when all that is stored stays where it is. -/
def Heap.Grows {α : Type} (h h' : Heap α) : Prop :=
  h.cells <+: h'.cells

/-- **An array lives in a heap** when its elements are those that are stored at
its place. -/
def SharedArray.LivesIn {α : Type} (h : Heap α) : SharedArray α → Prop
  | empty => True
  | stored p xs => h.cells[p]? = some xs

namespace SharedArray

variable {α : Type}

@[simp] theorem elements_empty : (empty : SharedArray α).elements = [] := rfl

@[simp] theorem livesIn_empty (h : Heap α) : (empty : SharedArray α).LivesIn h := trivial

end SharedArray

end SharpSource
