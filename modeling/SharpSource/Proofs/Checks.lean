import SharpSource.Proofs.WellFormed

/-!
# What validation promises

What a declaration can fail on are the keywords for kinds and accessibilities,
which not all of these have. A well-formed entry has only such as have one, and
so it is `TypeEntry.Declarable`; a manifest that passes has nothing but such
entries (`Manifest.declarable_of_validate`).
-/

namespace SharpSource

/-- **An entry that can be declared**: its namespace is not blank, and every
kind and every accessibility that is written out for it, for the types around it
and for its members has a keyword. -/
structure TypeEntry.Declarable (e : TypeEntry) : Prop where
  ns : ∀ ns, e.ns = some ns → Text.isBlankText ns = false
  kind : (e.typeKind.keyword? e.isRecord).isSome
  access : e.access.keyword?.isSome
  containing : ∀ c ∈ e.containing,
    (c.typeKind.keyword? c.isRecord).isSome ∧ c.access.keyword?.isSome
  members : ∀ m ∈ e.members, ∀ a ∈ m.accesses, a.keyword?.isSome

theorem TypeKind.IsDeclarable.keyword {k : TypeKind} {record : Bool} (h : k.IsDeclarable record) :
    (k.keyword? record).isSome := by
  rcases h.1 with rfl | rfl | rfl | rfl <;> rfl

theorem Accessibility.IsDeclarable.keyword {a : Accessibility} (h : a.IsDeclarable) :
    a.keyword?.isSome := by
  cases a with
  | notApplicable => exact absurd rfl h.1
  | protectedOrInternal => exact absurd rfl h.2
  | _ => rfl

/-- All accessibilities of a member that is in order have keywords. -/
theorem MemberEntry.WellFormed.keyword {m : MemberEntry} (h : m.WellFormed) :
    ∀ a ∈ m.accesses, a.keyword?.isSome := by
  intro a ha
  rw [accesses, List.mem_cons, List.mem_append, Option.mem_toList, Option.mem_toList] at ha
  rcases ha with rfl | hgetter | hsetter
  · exact h.access.keyword
  · exact (h.getter a hgetter).keyword
  · exact (h.setter a hsetter).keyword

/-- **An entry that is in order can be declared.** -/
theorem TypeEntry.WellFormed.declarable {e : TypeEntry} (h : e.WellFormed) : e.Declarable where
  ns ns hns := Text.not_blank_of_split (h.ns ns hns)
  kind := h.kind.keyword
  access := h.access.keyword
  containing c hc := ⟨(h.containing c hc).kind.keyword, (h.containing c hc).access.keyword⟩
  members m hm := (h.members m hm).keyword

/-- **A manifest that passes** has an indentation, and all its entries can be
declared. -/
theorem Manifest.declarable_of_validate {m : Manifest} {source file : String}
    (h : m.validate source file = .ok ()) :
    (∃ indent, m.options.indent.indent = .ok indent) ∧ ∀ e ∈ m.types, e.Declarable := by
  obtain ⟨hm, hfits⟩ := validate_ok_iff.mp h
  exact ⟨IndentConfig.indent_ok_iff.mpr ⟨hm.width, hfits⟩,
    fun e he => (hm.entries e he).declarable⟩

end SharpSource
