import SharpSource.Proofs.EqualityLaws
import SharpSource.SharedArray

/-!
# The shortcut through places

Equality of arrays takes a shortcut: two that are stored at one place are equal,
whatever they hold. In one heap this cannot be noticed. A place has one content,
so the two are the same list, and a list equals itself where its elements do
(`SharedArray.beqWith_eq_isEqv`).

So arrays are equal exactly when they have the same length and equal elements,
one by one in order (`SharedArray.beqWith_iff`), and arrays of lawful keys are
lawful keys (`SharedArray.lawfulKey`). An element that does not equal itself
would break both: an array that holds it would equal its copies and no other
array.
-/

namespace SharpSource

/-! ### Making arrays -/

theorem Heap.elements_create {α : Type} (h : Heap α) (xs : List α) :
    (h.create xs).1.elements = xs := by
  rw [create]
  split
  · rename_i hxs
    rw [hxs]
    rfl
  · rfl

/-- Making an array replaces nothing. -/
theorem Heap.grows_create {α : Type} (h : Heap α) (xs : List α) : h.Grows (h.create xs).2 := by
  rw [create]
  split
  · exact List.prefix_rfl
  · exact List.prefix_append h.cells [xs]

namespace SharedArray

variable {α β : Type} {h : Heap α} {a b : SharedArray α}

/-- An array that is made lives in the heap from then on. -/
theorem livesIn_create (h : Heap α) (xs : List α) :
    (h.create xs).1.LivesIn (h.create xs).2 := by
  rw [Heap.create]
  split
  · trivial
  · exact List.getElem?_concat_length

/-- What lives in a heap lives on when it grows. -/
theorem LivesIn.grow {h' : Heap α} (ha : a.LivesIn h) (hgrows : h.Grows h') : a.LivesIn h' := by
  cases a with
  | empty => trivial
  | stored p xs =>
    have hp : p < h.cells.length := (List.getElem?_eq_some_iff.mp ha).1
    obtain ⟨more, hmore⟩ := hgrows
    change h'.cells[p]? = some xs
    rw [← hmore, List.getElem?_append_left hp]
    exact ha

/-- **An array is empty** exactly when it has no elements: none are ever stored
for one that has not. -/
theorem isEmpty_iff (ha : a.LivesIn h) : a.isEmpty = true ↔ a.size = 0 := by
  cases a with
  | empty => exact ⟨fun _ => rfl, fun _ => rfl⟩
  | stored p xs =>
    have hxs : xs ≠ [] := h.nonempty xs (List.mem_of_getElem? ha)
    constructor
    · intro hempty
      cases hempty
    · intro hsize
      exact absurd (List.eq_nil_of_length_eq_zero hsize) hxs

/-! ### Places -/

theorem isEqv_iff_forall₂ {eq : α → α → Bool} {xs ys : List α} :
    xs.isEqv ys eq = true ↔ List.Forall₂ (fun x y => eq x y = true) xs ys := by
  induction xs generalizing ys with
  | nil => cases ys <;> simp
  | cons x xs ih =>
    cases ys with
    | nil => simp
    | cons y ys => rw [List.isEqv_cons_cons, Bool.and_eq_true, ih, List.forall₂_cons]

theorem isEqv_eq_map_beq [BEq β] {eq : α → α → Bool} {value : α → β} {xs ys : List α}
    (heq : ∀ x ∈ xs, ∀ y ∈ ys, eq x y = (value x == value y)) :
    xs.isEqv ys eq = (xs.map value == ys.map value) := by
  induction xs generalizing ys with
  | nil => cases ys <;> rfl
  | cons x xs ih =>
    cases ys with
    | nil => rfl
    | cons y ys =>
      have htail : ∀ x' ∈ xs, ∀ y' ∈ ys, eq x' y' = (value x' == value y') := fun x' hx y' hy =>
        heq x' (List.mem_cons_of_mem x hx) y' (List.mem_cons_of_mem y hy)
      rw [List.isEqv_cons_cons, List.map_cons, List.map_cons, List.cons_beq_cons, ih htail,
        heq x (List.mem_cons_self ..) y (List.mem_cons_self ..)]

/-- **At one place is one list.** -/
theorem elements_eq_of_place {p : Nat} {xs ys : List α} (ha : (stored p xs).LivesIn h)
    (hb : (stored p ys).LivesIn h) : xs = ys :=
  Option.some.inj (ha.symm.trans hb)

/-- Where equality of elements is reflexive, **places do not count**: arrays are
compared as the lists of their elements are. -/
theorem beqWith_eq_isEqv {eq : α → α → Bool} (ha : a.LivesIn h) (hb : b.LivesIn h)
    (hrefl : ∀ x ∈ a.elements, x ∈ b.elements → eq x x = true) :
    a.beqWith eq b = a.elements.isEqv b.elements eq := by
  cases a with
  | empty => cases b <;> rfl
  | stored p xs =>
    cases b with
    | empty => rfl
    | stored q ys =>
      rw [beqWith]
      by_cases hplace : p = q
      · subst hplace
        obtain rfl : xs = ys := elements_eq_of_place ha hb
        have hself : xs.isEqv xs eq = true :=
          isEqv_iff_forall₂.mpr (List.forall₂_same.mpr fun x hx => hrefl x hx hx)
        rw [elements, hself, Bool.or_true]
      · rw [beq_false_of_ne hplace, Bool.false_or]
        rfl

/-- Arrays are compared as the values of their elements are. -/
theorem beqWith_eq [BEq β] [ReflBEq β] {eq : α → α → Bool} {value : α → β} (ha : a.LivesIn h)
    (hb : b.LivesIn h)
    (heq : ∀ x ∈ a.elements, ∀ y ∈ b.elements, eq x y = (value x == value y)) :
    a.beqWith eq b = (a.elements.map value == b.elements.map value) := by
  rw [beqWith_eq_isEqv ha hb, isEqv_eq_map_beq heq]
  intro x hx hx'
  rw [heq x hx x hx']
  exact BEq.rfl

/-- Arrays of texts are compared as lists of texts. -/
theorem texts_beqWith_eq {h : Heap String} {a b : SharedArray String} (ha : a.LivesIn h)
    (hb : b.LivesIn h) : a.beqWith (· == ·) b = (a.elements == b.elements) := by
  have hbeq : a.beqWith (· == ·) b = (a.elements.map id == b.elements.map id) :=
    beqWith_eq ha hb fun _ _ _ _ => rfl
  rwa [List.map_id, List.map_id] at hbeq

/-- The tokens of an array are those of the values of its elements. -/
theorem fingerprintWith_eq {item : α → List HashToken} {item' : β → List HashToken} {value : α → β}
    (hitem : ∀ x, item x = item' (value x)) (a : SharedArray α) :
    a.fingerprintWith item = fingerprintList item' (a.elements.map value) :=
  (fingerprintList_map (fun x => (hitem x).symm) a.elements).symm

/-! ### The laws of arrays -/

/-- **An array holds valid elements**, and lives in a heap. -/
def Holds (h : Heap α) (Valid : α → Prop) (a : SharedArray α) : Prop :=
  a.LivesIn h ∧ ∀ x ∈ a.elements, Valid x

variable {Valid : α → Prop} {eq : α → α → Bool} {fingerprint : α → List HashToken}

/-- **Arrays are equal** exactly when they have the same length and their
elements are equal, one by one in order. -/
theorem beqWith_iff (hkey : LawfulKey Valid eq fingerprint) (ha : a.Holds h Valid)
    (hb : b.Holds h Valid) :
    a.beqWith eq b = true ↔ a.size = b.size ∧
      ∀ i (hi : i < a.elements.length) (hi' : i < b.elements.length),
        eq a.elements[i] b.elements[i] = true := by
  rw [beqWith_eq_isEqv ha.1 hb.1 fun x hx _ => hkey.refl x (ha.2 x hx), isEqv_iff_forall₂,
    List.forall₂_iff_get]
  rfl

/-- **Arrays of lawful keys are lawful keys.** -/
theorem lawfulKey (hkey : LawfulKey Valid eq fingerprint) (h : Heap α) :
    LawfulKey (Holds h Valid) (beqWith eq) (fingerprintWith fingerprint) := by
  constructor
  case refl =>
    intro a ha
    rw [beqWith_iff hkey ha ha]
    exact ⟨rfl, fun i hi _ => hkey.refl _ (ha.2 _ (List.getElem_mem hi))⟩
  case symm =>
    intro a b ha hb hab
    rw [beqWith_iff hkey ha hb] at hab
    rw [beqWith_iff hkey hb ha]
    obtain ⟨hsize, helements⟩ := hab
    exact ⟨hsize.symm, fun i hi hi' => hkey.symm _ _ (ha.2 _ (List.getElem_mem hi'))
      (hb.2 _ (List.getElem_mem hi)) (helements i hi' hi)⟩
  case trans =>
    intro a b c ha hb hc hab hbc
    rw [beqWith_iff hkey ha hb] at hab
    rw [beqWith_iff hkey hb hc] at hbc
    rw [beqWith_iff hkey ha hc]
    refine ⟨hab.1.trans hbc.1, fun i hi hi'' => ?_⟩
    have hi' : i < b.elements.length := Nat.lt_of_lt_of_eq hi hab.1
    exact hkey.trans _ _ _ (ha.2 _ (List.getElem_mem hi)) (hb.2 _ (List.getElem_mem hi'))
      (hc.2 _ (List.getElem_mem hi'')) (hab.2 i hi hi') (hbc.2 i hi' hi'')
  case fingerprint =>
    intro a b ha hb hab
    obtain ⟨hsize, helements⟩ := (beqWith_iff hkey ha hb).mp hab
    have hitems : a.elements.map fingerprint = b.elements.map fingerprint := by
      refine List.ext_getElem ?_ fun i hi hi' => ?_
      · rw [List.length_map, List.length_map]
        exact hsize
      rw [List.length_map] at hi hi'
      rw [List.getElem_map, List.getElem_map]
      exact hkey.fingerprint _ _ (ha.2 _ (List.getElem_mem hi)) (hb.2 _ (List.getElem_mem hi'))
        (helements i hi hi')
    rw [fingerprintWith, fingerprintWith, fingerprintList, fingerprintList, List.flatMap_def,
      List.flatMap_def, hitems]
    exact congrArg (fun n => HashToken.count n :: (b.elements.map fingerprint).flatten) hsize

end SharedArray

end SharpSource
