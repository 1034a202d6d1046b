import SharpSource.Emitter.Properties
import SharpSource.Manifest.Plan
import SharpSource.Proofs.Checks

/-!
# From entries to specifications

An entry becomes a description and the description a specification. On the way
modifiers, a namespace, a base type and a comment are added, and none of these
steps touches what a declaration can fail on. So the specification of an entry
that can be declared is there (`Manifest.specOf_of_declarable`), and its members
can be declared as well (`Manifest.declaration_memberOf`).
-/

namespace SharpSource

/-! ### Declarations -/

namespace Declaration

theorem accessibility_ok {a : Accessibility} (h : a.keyword?.isSome) :
    ∃ s, accessibility a = .ok s := by
  obtain ⟨keyword, hkeyword⟩ := Option.isSome_iff_exists.mp h
  exact ⟨keyword, by rw [accessibility, hkeyword]⟩

theorem kind_ok {k : TypeKind} {record : Bool} (h : (k.keyword? record).isSome) :
    ∃ s, kind k record = .ok s := by
  obtain ⟨keyword, hkeyword⟩ := Option.isSome_iff_exists.mp h
  exact ⟨keyword, by rw [kind, hkeyword]⟩

/-- A type with keywords for its accessibility and its kind can be declared. -/
theorem ofDesc_ok {d : TypeDesc} (haccess : d.accessibility.keyword?.isSome)
    (hkind : (d.kind.keyword? d.isRecord).isSome) : ∃ s, ofDesc d = .ok s := by
  obtain ⟨access, ha⟩ := accessibility_ok haccess
  obtain ⟨word, hw⟩ := kind_ok hkind
  exact ⟨_, Outcome.bind_eq_ok_iff.mpr ⟨access, ha, Outcome.bind_eq_ok_iff.mpr ⟨word, hw, rfl⟩⟩⟩

end Declaration

namespace Member

theorem accessor_ok {own : Accessibility} (m : Member) (keyword : String)
    (h : own.keyword?.isSome) : ∃ s, m.accessor own keyword = .ok s := by
  rw [accessor]
  split
  · exact ⟨_, rfl⟩
  · obtain ⟨access, ha⟩ := Declaration.accessibility_ok h
    exact ⟨_, Outcome.bind_eq_ok_iff.mpr ⟨access, ha, rfl⟩⟩

/-- A member with keywords for its accessibility and those of its accessors can
be declared. -/
theorem declaration_ok {m : Member} (haccess : m.accessibility.keyword?.isSome)
    (hgetter : m.getter.keyword?.isSome) (hsetter : m.setter.keyword?.isSome) :
    ∃ s, m.declaration = .ok s := by
  obtain ⟨access, ha⟩ := Declaration.accessibility_ok haccess
  obtain ⟨getter, hg⟩ := accessor_ok m "get" hgetter
  obtain ⟨setter, hs⟩ := accessor_ok m (if m.isInitOnly then "init" else "set") hsetter
  rw [declaration]
  split
  · rw [propertyLine, ha, Outcome.ok_bind, hg, Outcome.ok_bind]
    -- The accessor that writes is there only for a property that can be written.
    cases m.isReadOnly with
    | true => exact ⟨_, rfl⟩
    | false =>
      rw [hs]
      exact ⟨_, rfl⟩
  · exact ⟨_, Outcome.bind_eq_ok_iff.mpr ⟨access, ha, rfl⟩⟩

end Member

/-! ### Descriptions -/

/-- **Modifiers only set marks**, each of them the one that it is called by. -/
theorem TypeDesc.withModifiers_eq (d : TypeDesc) (ms : List Modifier) :
    d.withModifiers ms = { d with
      isStatic := d.isStatic || ms.contains .static
      isAbstract := d.isAbstract || ms.contains .abstract
      isSealed := d.isSealed || ms.contains .sealed
      isReadOnly := d.isReadOnly || ms.contains .readonly
      isPartial := d.isPartial || ms.contains .partialType } := by
  induction ms generalizing d with
  | nil =>
    cases d
    simp [withModifiers]
  | cons m ms ih =>
    rw [withModifiers, List.foldl_cons]
    refine (ih _).trans ?_
    cases m <;> simp

/-- The description of a type around an entry has its accessibility, kind and
mark of a record. -/
theorem ContainingEntry.toDesc_eq (c : ContainingEntry) :
    c.toDesc.accessibility = c.access ∧ c.toDesc.kind = c.typeKind ∧
      c.toDesc.isRecord = c.isRecord := by
  rw [toDesc, TypeDesc.withModifiers_eq]
  exact ⟨rfl, rfl, rfl⟩

namespace Manifest

variable (m : Manifest)

/-- **What the description of an entry takes over** from the entry, whatever its
base type and its modifiers are. -/
theorem describe_eq (e : TypeEntry) :
    (m.describe e).accessibility = e.access ∧ (m.describe e).kind = e.typeKind ∧
      (m.describe e).isRecord = e.isRecord ∧
      (m.describe e).ns = e.ns.filter (!Text.isBlankText ·) ∧
      (m.describe e).containing = e.containing.map ContainingEntry.toDesc ∧
      (m.describe e).members = e.members.map (m.memberOf e.toRef) := by
  rw [describe, TypeDesc.withModifiers_eq]
  -- The base type and the modifiers are set last, and on other fields than these.
  cases hns : e.ns with
  | none =>
    cases e.base <;> exact ⟨rfl, rfl, rfl, rfl, rfl, rfl⟩
  | some ns =>
    have hfilter : (some ns).filter (!Text.isBlankText ·) =
        if Text.isBlankText ns then none else some ns := by
      cases hblank : Text.isBlankText ns <;> simp [hblank]
    rw [hfilter]
    cases e.base <;> exact ⟨rfl, rfl, rfl, rfl, rfl, rfl⟩

/-- An entry and its description have the same name. -/
theorem name_describe (e : TypeEntry) : (m.describe e).name = e.name := by
  rw [describe, TypeDesc.withModifiers_eq]
  cases e.ns <;> cases e.base <;> rfl

theorem accessibility_memberOf (declaring : TypeRef) (e : MemberEntry) :
    (m.memberOf declaring e).accessibility = e.access ∧
      (m.memberOf declaring e).getter = e.getter.getD e.access ∧
      (m.memberOf declaring e).setter = e.setter.getD e.access := by
  rw [memberOf]
  cases e.field <;> exact ⟨rfl, rfl, rfl⟩

/-- A member can be declared when all accessibilities of its entry have
keywords. -/
theorem declaration_memberOf (declaring : TypeRef) {e : MemberEntry}
    (h : ∀ a ∈ e.accesses, a.keyword?.isSome) :
    ∃ s, (m.memberOf declaring e).declaration = .ok s := by
  obtain ⟨haccess, hgetter, hsetter⟩ := m.accessibility_memberOf declaring e
  have hown : e.access.keyword?.isSome := h _ (List.mem_cons_self ..)
  refine Member.declaration_ok ?_ ?_ ?_
  · rw [haccess]
    exact hown
  · rw [hgetter]
    cases hg : e.getter with
    | none => exact hown
    | some a => exact h a (by simp [MemberEntry.accesses, hg])
  · rw [hsetter]
    cases hs : e.setter with
    | none => exact hown
    | some a => exact h a (by simp [MemberEntry.accesses, hs])

/-! ### Specifications -/

/-- **The specification of an entry that can be declared** exists. It has a
declaration, the namespace of the entry and its members. -/
theorem specOf_of_declarable {e : TypeEntry} (h : e.Declarable) :
    ∃ spec, m.specOf e = .ok spec ∧ spec.declarations ≠ [] ∧ spec.ns = e.ns ∧
      spec.members = e.members.map (m.memberOf e.toRef) := by
  obtain ⟨haccess, hkind, hrecord, hns, hcontaining, hmembers⟩ := m.describe_eq e
  obtain ⟨declared, hdeclared⟩ := Declaration.ofDesc_ok (d := m.describe e)
    (by rw [haccess]; exact h.access) (by rw [hkind, hrecord]; exact h.kind)
  obtain ⟨around, haround⟩ : ∃ ds, (m.describe e).containing.mapM Declaration.ofDesc = .ok ds := by
    refine Outcome.mapM_ok_of_forall fun d hd => ?_
    rw [hcontaining] at hd
    obtain ⟨c, hc, rfl⟩ := List.mem_map.mp hd
    obtain ⟨ha, hk, hr⟩ := c.toDesc_eq
    exact Declaration.ofDesc_ok (by rw [ha]; exact (h.containing c hc).2)
      (by rw [hk, hr]; exact (h.containing c hc).1)
  have hns' : (m.describe e).ns = e.ns := by
    rw [hns]
    cases hns : e.ns with
    | none => rfl
    | some ns => simp [h.ns ns hns]
  have hspec : ∀ others, TypeSpec.ofDesc (m.describe e) others = .ok
      { ns := (m.describe e).ns, declarations := declared :: around,
        target := .desc (m.describe e), attributes := (m.describe e).attributes,
        members := (m.describe e).members, others } := by
    intro others
    rw [TypeSpec.ofDesc, Declaration.nest, List.mapM_cons, hdeclared, Outcome.ok_bind, haround]
    rfl
  rw [specOf, hspec]
  cases e.doc with
  | none => exact ⟨_, rfl, List.cons_ne_nil _ _, hns', hmembers⟩
  | some doc => exact ⟨_, rfl, List.cons_ne_nil _ _, hns', hmembers⟩

end Manifest

end SharpSource
