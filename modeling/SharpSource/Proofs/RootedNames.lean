import SharpSource.Proofs.References
import SharpSource.Proofs.SimpleNames

/-!
# Types named from the root

A member may name its type from the root of all namespaces. Such a name leaves
nothing open: it says of itself which type it means, and the reference to it has
it for its qualified name, whether the manifest declares that type or not.

The lookup takes the alias of the root off first, and asks for what is left in
both of the ways in which an entry is found. By its full name an entry is found
where it belongs, and its reference has the name that was asked for. By its
simple name an entry is found as well, and one with a namespace is then another
type than the one that was named. This is the only way in which a name from the
root is lost (`Manifest.qualifiedName_resolve_eq_iff`). The lemma on references
that carries this is `TypeEntry.toRef_eq`: an entry is referred to by its full
name.
-/

namespace SharpSource

/-! ### Keywords -/

/-- Only a keyword is taken for one. -/
theorem TypeRef.mem_of_ofKeyword? {text : String} {t : TypeRef}
    (h : TypeRef.ofKeyword? text = some t) : text ∈ SpecialType.keywordTable.map (·.2.1) := by
  obtain ⟨special, hspecial, -⟩ := Option.bind_eq_some_iff.mp h
  obtain ⟨row, hrow, -⟩ := Option.map_eq_some_iff.mp hspecial
  have htext : row.2.1 = text := by simpa using List.find?_some hrow
  exact List.mem_map.mpr ⟨row, List.mem_of_find?_eq_some hrow, htext⟩

/-- No keyword starts with the alias of the root. -/
theorem TypeRef.ofKeyword?_globalAlias {text : String}
    (h : Text.startsWith globalAlias text = true) :
    TypeRef.ofKeyword? text = none := by
  have hkeywords : ∀ keyword ∈ SpecialType.keywordTable.map (·.2.1),
      Text.startsWith globalAlias keyword = false := by
    decide +kernel
  rw [Option.eq_none_iff_forall_ne_some]
  intro t ht
  rw [hkeywords text (mem_of_ofKeyword? ht)] at h
  cases h

/-! ### References to entries by their full name -/

namespace TypeEntry

variable {e : TypeEntry}

/-- **An entry is referred to by its full name.** -/
theorem toRef_eq (e : TypeEntry) : e.toRef = .ofName e.fullName e.typeKind := by
  rw [toRef, TypeRef.ofParts, fullName]
  cases e.ns.filter (!Text.isBlankText ·) <;> rfl

/-- The full name of an entry is made of names and dots. -/
theorem Named.isContinue_fullName (h : e.Named) :
    ∀ c ∈ e.fullName.toList, c = '.' ∨ Identifier.isContinue c = true := by
  intro c hc
  rw [fullName] at hc
  split at hc
  · rename_i ns hns
    simp only [String.toList_append, List.mem_append] at hc
    rcases hc with (hc | hc) | hc
    · exact h.ns ns (Option.eq_some_of_filter_eq_some hns) c hc
    · exact Or.inl (by simpa using hc)
    · exact Or.inr (h.name c hc)
  · exact Or.inr (h.name c hc)

/-- There are no blanks and no colons in a full name. -/
theorem Named.plain_fullName (h : e.Named) :
    (∀ c ∈ e.fullName.toList, Text.isBlank c = false) ∧ ':' ∉ e.fullName.toList := by
  have hplain := fun c hc => plain_of_isContinue (h.isContinue_fullName c hc)
  exact ⟨fun c hc => (hplain c hc).1, fun hc => (hplain _ hc).2 rfl⟩

theorem qualifiedName_toRef (h : e.Named) : e.toRef.qualifiedName = globalAlias ++ e.fullName := by
  obtain ⟨hblank, hcolon⟩ := h.plain_fullName
  rw [toRef_eq, TypeRef.qualifiedName_ofName hblank hcolon]

/-- The full name is the simple one for an entry without a namespace only. -/
theorem fullName_eq_name_iff (hns : ∀ ns, e.ns = some ns → Text.isBlankText ns = false) :
    e.fullName = e.name ↔ e.ns = none := by
  rw [fullName, filter_ns hns]
  cases hname : e.ns with
  | none => simp
  | some ns =>
    -- With a namespace and a dot in front a name is longer.
    have hlonger : ns ++ "." ++ e.name ≠ e.name := fun heq => by
      have hlength := congrArg String.length heq
      have hdot : (".").length = 1 := rfl
      rw [String.length_append, String.length_append, hdot] at hlength
      omega
    simp [hlonger]

end TypeEntry

/-! ### Names from the root -/

namespace TypeRef

theorem qualifiedName_withSuffix (t : TypeRef) (suffix : String) :
    (t.withSuffix suffix).qualifiedName = t.qualifiedName ++ Text.trim suffix := by
  rw [withSuffix]
  by_cases hempty : Text.trim suffix = ""
  · rw [if_pos hempty, hempty, String.append_empty]
  · rw [if_neg hempty]
    split
    · rfl
    · split <;> rfl

/-- **A name from the root is its own qualified name.** -/
theorem qualifiedName_ofName_globalAlias {name : String}
    (h : ∀ c ∈ name.toList.getLast?, Text.isBlank c = false) (kind : TypeKind) :
    (ofName (globalAlias ++ name) kind).qualifiedName = globalAlias ++ name := by
  rw [ofName, trim_globalAlias_append h, unaliased_globalAlias_append]

end TypeRef

/-- The base of a type does not end in a blank. -/
theorem MemberEntry.isBlank_getLast?_base (e : MemberEntry) :
    ∀ c ∈ e.base.toList.getLast?, Text.isBlank c = false := by
  rw [base, TypeSuffix.split, String.toList_ofList]
  exact fun c hc => Text.isBlank_getLast?_dropBlankEnd c hc

theorem Text.startsWith_append (start s : String) : startsWith start (start ++ s) = true := by
  rw [startsWith_iff, String.toList_append]
  exact List.prefix_append _ _

theorem Text.eq_append_of_startsWith {start s : String} (h : startsWith start s = true) :
    ∃ rest, s = start ++ rest := by
  obtain ⟨rest, hrest⟩ := startsWith_iff.mp h
  exact ⟨String.ofList rest, String.toList_inj.mp (by simpa using hrest.symm)⟩

namespace Manifest

variable {m : Manifest} {e : TypeEntry}

theorem qualifiedName_resolve (m : Manifest) (member : MemberEntry) :
    (m.resolve member.type).qualifiedName =
      (m.resolveBase member.base).qualifiedName ++ member.suffix := by
  have hresolve : m.resolve member.type =
      (m.resolveBase member.base).withSuffix member.suffix := rfl
  rw [hresolve, TypeRef.qualifiedName_withSuffix, member.trim_suffix]

/-- **The type that a name from the root stands for** is the one named, unless
an entry has what follows the alias for its simple name. -/
theorem qualifiedName_resolveBase_globalAlias (hnamed : m.Named) {name : String}
    (hend : ∀ c ∈ (globalAlias ++ name).toList.getLast?, Text.isBlank c = false) :
    (m.resolveBase (globalAlias ++ name)).qualifiedName = globalAlias ++ name ∨
      ∃ e ∈ m.types, e.name = name ∧
        (m.resolveBase (globalAlias ++ name)).qualifiedName = globalAlias ++ e.fullName := by
  have hroot := Text.startsWith_append globalAlias name
  rw [resolveBase, TypeRef.ofKeyword?_globalAlias hroot]
  cases hfind : m.findType? (globalAlias ++ name) with
  | some e =>
    obtain ⟨hmem, hanswers⟩ := (findType?_eq_some_iff hnamed).mp hfind
    have hqualified := TypeEntry.qualifiedName_toRef (hnamed.entries e hmem)
    rw [TypeEntry.Answers, unaliased_globalAlias_append] at hanswers
    rcases hanswers with hsimple | hfull
    · exact Or.inr ⟨e, hmem, hsimple, hqualified⟩
    · exact Or.inl (by rw [← hfull]; exact hqualified)
  | none =>
    have hqualified : isQualified (globalAlias ++ name) = true := by
      rw [isQualified, hroot, Bool.true_or]
    simp only [hqualified, if_true]
    refine Or.inl (TypeRef.qualifiedName_ofName_globalAlias (fun c hc => hend c ?_) _)
    rw [String.toList_append, List.getLast?_append, Option.mem_def.mp hc]
    rfl

/-- **A name from the root keeps its meaning** unless an entry of a namespace
has what follows the alias for its simple name. In a manifest that passes, the
type of a member that is named from the root has that name and the suffix of the
member for its qualified name exactly when there is no such entry; and the
entry, if there is one, is what the type stands for. -/
theorem qualifiedName_resolve_eq_iff {source file : String} {member : MemberEntry}
    (hvalid : m.validate source file = .ok ())
    (hroot : Text.startsWith globalAlias member.base = true) :
    ((m.resolve member.type).qualifiedName = member.base ++ member.suffix ↔
      ∀ e ∈ m.types, member.base = globalAlias ++ e.name → e.ns = none) ∧
    ∀ e ∈ m.types, member.base = globalAlias ++ e.name →
      (m.resolve member.type).qualifiedName = globalAlias ++ e.fullName ++ member.suffix := by
  have hnamed := named_of_validate hvalid
  have hdecl := (declarable_of_validate hvalid).2
  have hbase := member.isBlank_getLast?_base
  obtain ⟨name, hname⟩ := Text.eq_append_of_startsWith hroot
  rw [hname] at hbase
  rw [qualifiedName_resolve, hname]
  -- The entry with the name is the one that is found.
  have hentry : ∀ e ∈ m.types, e.name = name →
      (m.resolveBase (globalAlias ++ name)).qualifiedName = globalAlias ++ e.fullName := by
    intro e he hsimple
    have hfind : m.findType? (globalAlias ++ name) = some e :=
      (findType?_eq_some_iff hnamed).mpr
        ⟨he, Or.inl (by rw [unaliased_globalAlias_append, hsimple])⟩
    rw [resolveBase, TypeRef.ofKeyword?_globalAlias (hname ▸ hroot), hfind]
    exact TypeEntry.qualifiedName_toRef (hnamed.entries e he)
  simp only [String.append_left_inj, String.append_right_inj]
  refine ⟨⟨?_, ?_⟩, fun e he hsimple => hentry e he hsimple.symm⟩
  · intro hkept e he hsimple
    rw [hentry e he hsimple.symm, String.append_right_inj, hsimple] at hkept
    exact (TypeEntry.fullName_eq_name_iff (hdecl e he).ns).mp hkept
  · intro hall
    rcases qualifiedName_resolveBase_globalAlias hnamed hbase with hkept | ⟨e, he, hsimple, hlost⟩
    · exact hkept
    · rw [hlost, (TypeEntry.fullName_eq_name_iff (hdecl e he).ns).mpr (hall e he hsimple.symm),
        hsimple]

/-- A status of another namespace is meant, and an entry has the same simple
name. -/
theorem qualifiedName_resolve_eq_iff_elsewhere :
    let member : MemberEntry := { name := "State", type := "global::Billing.Status [ ] ?" }
    let m : Manifest := { types := [
      { name := "Order", ns := some "Shop", members := [member] },
      { name := "Status", ns := some "Shop", kind := some .enumType }] }
    m.validate "" "shop.toml" = .ok () ∧ Text.startsWith globalAlias member.base = true ∧
      (m.resolve member.type).qualifiedName = "global::Billing.Status[]?" := by
  intro member m
  have hvalid : m.validate "" "shop.toml" = .ok () := by decide +kernel
  have hroot : Text.startsWith globalAlias member.base = true := by decide +kernel
  have hkept := (qualifiedName_resolve_eq_iff hvalid hroot).1.mpr (by decide +kernel)
  exact ⟨hvalid, hroot, hkept.trans (by decide +kernel)⟩

/-- **A name from the root that is lost**: a type of the global namespace is
meant, and the reference is to the entry with its simple name. -/
theorem qualifiedName_resolve_ne_base :
    let member : MemberEntry := { name := "State", type := "global::Status" }
    let m : Manifest := { types := [
      { name := "Order", ns := some "Shop", modifiers := [.partialType], members := [member] },
      { name := "Status", ns := some "Shop", kind := some .enumType, emitters := [] }] }
    m.validate "" "shop.toml" = .ok () ∧ Text.startsWith globalAlias member.base = true ∧
      (m.resolve member.type).qualifiedName = "global::Shop.Status" ∧
      (m.resolve member.type).qualifiedName ≠ member.base ++ member.suffix := by
  decide +kernel

end Manifest

end SharpSource
