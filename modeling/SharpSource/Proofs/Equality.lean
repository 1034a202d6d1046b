import Mathlib.Data.List.Forall2
import SharpSource.TypeSpec

/-!
# What equality sees

Equality of specifications is put together from that of descriptors, of
descriptions, of members and of references, and at the bottom a reference is
its qualified name and nothing else. Read from the top, two equal values are
the same but for the references in them: a member may differ in the types that
it mentions (`Member.beq_iff`), the facts about a type in its members
(`TypeFacts.beq_iff`), and all the rest of a description is the same. In
particular equal descriptions have one generic name
(`TypeDesc.genericName_eq_of_beq`).
-/

namespace SharpSource

/-- Lists are equal when their elements are, one by one. -/
theorem forall₂_of_beq {α : Type} [BEq α] {xs ys : List α} (h : (xs == ys) = true) :
    List.Forall₂ (fun x y => (x == y) = true) xs ys := by
  induction xs generalizing ys with
  | nil =>
    cases ys with
    | nil => exact .nil
    | cons y ys => cases h
  | cons x xs ih =>
    cases ys with
    | nil => cases h
    | cons y ys =>
      rw [List.cons_beq_cons, Bool.and_eq_true] at h
      exact .cons h.1 (ih h.2)

/-! ### Members -/

/-- **Equal members** are the same but for their own type and the type that
declares them, and of these the qualified names agree. -/
theorem Member.beq_iff {a b : Member} : (a == b) = true ↔
    b = { a with type := b.type, declaring := b.declaring } ∧
      a.type.qualifiedName = b.type.qualifiedName ∧
      a.declaring.qualifiedName = b.declaring.qualifiedName := by
  rcases a with ⟨⟩
  rcases b with ⟨⟩
  change instBEqMember.beq _ _ = true ↔ _
  simp only [instBEqMember.beq, Bool.and_eq_true, beq_iff_eq, TypeRef.beq_iff, Member.mk.injEq]
  constructor
  · rintro ⟨rfl, htype, hdeclaring, rfl, rfl, rfl, rfl, rfl, rfl, rfl, rfl, rfl, rfl⟩
    simp [htype, hdeclaring]
  · rintro ⟨⟨rfl, -, -, rfl, rfl, rfl, rfl, rfl, rfl, rfl, rfl, rfl, rfl⟩, htype, hdeclaring⟩
    simp [htype, hdeclaring]

/-! ### Descriptions -/

/-- **Equal facts** about a type are the same but for the members, which are
equal one by one. -/
theorem TypeFacts.beq_iff {a b : TypeFacts} : (a == b) = true ↔
    b = { a with members := b.members } ∧ (a.members == b.members) = true := by
  rcases a with ⟨⟩
  rcases b with ⟨⟩
  change instBEqTypeFacts.beq _ _ = true ↔ _
  simp only [instBEqTypeFacts.beq, Bool.and_eq_true, beq_iff_eq, TypeFacts.mk.injEq]
  constructor
  · rintro ⟨rfl, rfl, rfl, rfl, rfl, rfl, rfl, rfl, rfl, rfl, rfl, rfl, rfl, hmembers⟩
    simp [hmembers]
  · rintro ⟨⟨rfl, rfl, rfl, rfl, rfl, rfl, rfl, rfl, rfl, rfl, rfl, rfl, rfl, -⟩, hmembers⟩
    simp [hmembers]

namespace TypeDesc

theorem facts_beq_of_beq {d d' : TypeDesc} (h : (d == d') = true) :
    (d.toTypeFacts == d'.toTypeFacts) = true := by
  rcases d with ⟨f, _, _, _, _, _⟩
  rcases d' with ⟨f', _, _, _, _, _⟩
  change TypeDesc.beq _ _ = true at h
  simp only [TypeDesc.beq, Bool.and_eq_true] at h
  exact h.1.1.1.1

mutual

/-- **Equal descriptions have one generic name**, whatever they remember. -/
theorem genericName_eq_of_beq : ∀ {d d' : TypeDesc}, TypeDesc.beq d d' = true →
    d.genericName = d'.genericName
  | ⟨f, _, _, generics, _, _⟩, ⟨f', _, _, generics', _, _⟩, h => by
    simp only [TypeDesc.beq, Bool.and_eq_true] at h
    obtain ⟨⟨⟨⟨hfacts, -⟩, -⟩, hgenerics⟩, -⟩ := h
    have hname : f.name = f'.name := by
      rw [(TypeFacts.beq_iff.mp hfacts).1]
    have hnames := genericNames_eq_of_beqList hgenerics
    cases generics with
    | nil =>
      cases generics' with
      | nil => exact hname
      | cons g' gs' => cases hgenerics
    | cons g gs =>
      cases generics' with
      | nil => cases hgenerics
      | cons g' gs' =>
        -- The arguments are compared one by one, and so are their names.
        simp only [genericNames] at hnames
        simp only [genericName, hname, hnames]

theorem genericNames_eq_of_beqList : ∀ {ds ds' : List TypeDesc}, TypeDesc.beqList ds ds' = true →
    genericNames ds = genericNames ds'
  | [], [], _ => rfl
  | [], _ :: _, h => by cases h
  | _ :: _, [], h => by cases h
  | d :: ds, d' :: ds', h => by
    simp only [TypeDesc.beqList, Bool.and_eq_true] at h
    simp only [genericNames, genericName_eq_of_beq h.1, genericNames_eq_of_beqList h.2]

end

end TypeDesc

/-! ### Specifications -/

/-- **Equal specifications** have the same texts; their types and members are
equal. -/
theorem TypeSpec.beq_iff {a b : TypeSpec} : (a == b) = true ↔
    a.ns = b.ns ∧ a.declarations = b.declarations ∧ (a.target == b.target) = true ∧
      a.attributes = b.attributes ∧ (a.members == b.members) = true ∧
      (a.others == b.others) = true := by
  rcases a with ⟨⟩
  rcases b with ⟨⟩
  change instBEqTypeSpec.beq _ _ = true ↔ _
  simp only [instBEqTypeSpec.beq, Bool.and_eq_true, beq_iff_eq]

end SharpSource
