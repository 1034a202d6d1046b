import SharpSource.Proofs.Blanks
import SharpSource.Proofs.Independence

/-!
# Where a reference points

The type of a member is written qualified from the root of all namespaces. For
a type that the manifest declares this is the alias of the root, the namespace
and the name (`Manifest.sourceName_resolve`), and whatever the member puts
behind the type.

The types around an entry are missing from it. The file of an entry declares
its type inside of them (`TypeDesc.path`), so that a reference points to the
declaration of an entry when nothing is around it, and to no declaration
otherwise (`Manifest.sourceName_resolve_eq_path_iff`).
-/

namespace SharpSource

/-! ### Names that stay as they are -/

/-- A name without a colon has no alias in front. -/
theorem unaliased_eq_self {name : String} (h : ':' ∉ name.toList) : unaliased name = name := by
  rw [unaliased, Text.after?]
  cases hafter : Text.afterStart? globalAlias.toList name.toList with
  | none => rfl
  | some rest =>
    have hname := Text.eq_append_of_afterStart? hafter
    have hcolon : ':' ∈ globalAlias.toList := by decide
    exact absurd (hname ▸ List.mem_append_left rest hcolon) h

namespace TypeRef

/-- A name without blanks and colons is taken as it is. -/
theorem ofName_of_plain {name : String} (hblank : ∀ c ∈ name.toList, Text.isBlank c = false)
    (hcolon : ':' ∉ name.toList) (kind : TypeKind) :
    ofName name kind =
      ⟨simpleName name, globalAlias ++ name, kind.isValue, kind, .ordinary, none⟩ := by
  rw [ofName, Text.trim_eq_self hblank, unaliased_eq_self hcolon]

theorem qualifiedName_ofName {name : String} (hblank : ∀ c ∈ name.toList, Text.isBlank c = false)
    (hcolon : ':' ∉ name.toList) (kind : TypeKind) :
    (ofName name kind).qualifiedName = globalAlias ++ name := by
  rw [ofName_of_plain hblank hcolon]

/-- **A suffix is written behind the type**, whatever it makes of the type. -/
theorem sourceName_withSuffix (t : TypeRef) (suffix : String) :
    (t.withSuffix suffix).sourceName = t.sourceName ++ Text.trim suffix := by
  rw [withSuffix]
  by_cases hempty : Text.trim suffix = ""
  · rw [if_pos hempty, hempty, String.append_empty]
  · rw [if_neg hempty]
    -- All three of the changes leave the name that source writes.
    split
    · rfl
    · split <;> rfl

end TypeRef

/-! ### References to entries -/

namespace TypeEntry

variable {e : TypeEntry}

/-- The namespace of an entry, and then its name. -/
def qualifiers (e : TypeEntry) : List String :=
  e.ns.toList ++ [e.name]

/-- A character that goes on a name or divides its parts is no blank and no
colon. -/
theorem plain_of_isContinue {c : Char} (h : c = '.' ∨ Identifier.isContinue c = true) :
    Text.isBlank c = false ∧ c ≠ ':' := by
  rcases h with rfl | h
  · decide
  · constructor
    · cases hblank : Text.isBlank c with
      | false => rfl
      | true =>
        rw [Identifier.isContinue_eq_false_of_isBlank hblank] at h
        cases h
    · rintro rfl
      exact absurd h (by decide)

theorem Named.plain (h : e.Named) {c : Char} (hc : c ∈ (".".intercalate e.qualifiers).toList) :
    Text.isBlank c = false ∧ c ≠ ':' := by
  refine plain_of_isContinue ?_
  rw [qualifiers] at hc
  cases hns : e.ns with
  | none =>
    rw [hns] at hc
    exact Or.inr (h.name c (by simpa using hc))
  | some ns =>
    rw [hns] at hc
    simp only [Option.toList_some, List.cons_append, List.nil_append,
      String.intercalate_cons_cons, String.intercalate_singleton, String.toList_append,
      List.mem_append] at hc
    rcases hc with (hc | hc) | hc
    · exact h.ns ns hns c hc
    · exact Or.inl (by simpa using hc)
    · exact Or.inr (h.name c hc)

/-- A namespace that is not blank is taken as it is. -/
theorem filter_ns (h : ∀ ns, e.ns = some ns → Text.isBlankText ns = false) :
    e.ns.filter (!Text.isBlankText ·) = e.ns := by
  cases hns : e.ns with
  | none => rfl
  | some ns => rw [Option.filter_some, h ns hns, Bool.not_false, if_pos rfl]

/-- **The reference to an entry** is written as the alias of the root,
the namespace and the name. -/
theorem sourceName_toRef (h : e.Named) (hns : ∀ ns, e.ns = some ns → Text.isBlankText ns = false) :
    e.toRef.sourceName = globalAlias ++ ".".intercalate e.qualifiers := by
  have hparts : e.toRef = TypeRef.ofName (".".intercalate e.qualifiers) e.typeKind := by
    rw [toRef, TypeRef.ofParts, filter_ns hns, qualifiers]
    cases e.ns with
    | none => rfl
    | some ns => simp [String.intercalate_cons_cons]
  rw [hparts]
  exact TypeRef.qualifiedName_ofName (fun c hc => (h.plain hc).1) (fun hc => (h.plain hc).2 rfl) _

end TypeEntry

/-- What stands behind the base of the type of a member. -/
def MemberEntry.suffix (e : MemberEntry) : String :=
  (TypeSuffix.split (Text.trim e.type)).2

theorem MemberEntry.trim_suffix (e : MemberEntry) : Text.trim e.suffix = e.suffix := by
  refine Text.trim_eq_self fun c hc => ?_
  rw [suffix, TypeSuffix.split, String.toList_ofList] at hc
  simpa using (List.mem_filter.mp hc).2

/-! ### Where types are declared -/

/-- **The path to a described type**: its namespace, the types around it from
the outermost in, and its name. -/
def TypeDesc.path (d : TypeDesc) : List String :=
  d.ns.toList ++ (Declaration.nest d).reverse.map (·.name)

/-- A declaration declares a type behind whatever lines lead it. -/
def Declaration.Declares (d : TypeDesc) (declaration : String) : Prop :=
  ∃ leading header, ofDesc d = .ok header ∧ declaration = leading ++ header

theorem ContainingEntry.name_toDesc (c : ContainingEntry) : c.toDesc.name = c.name := by
  rw [toDesc, TypeDesc.withModifiers_eq]
  rfl

namespace TypeEntry

/-- A comment leads the first declaration. -/
theorem declares_documented (e : TypeEntry) {d : TypeDesc} {others : List Descriptor}
    {spec : TypeSpec} (h : TypeSpec.ofDesc d others = .ok spec) :
    List.Forall₂ Declaration.Declares (Declaration.nest d) (e.documented spec).declarations := by
  obtain ⟨declarations, hdeclarations, ⟨⟩⟩ := Outcome.bind_eq_ok_iff.mp h
  have hall := Outcome.mapM_eq_ok_iff.mp hdeclarations
  have hplain : ∀ d s, Declaration.ofDesc d = .ok s → Declaration.Declares d s :=
    fun d s hs => ⟨"", s, hs, by simp⟩
  rw [documented]
  cases e.doc with
  | none => exact hall.imp hplain
  | some doc =>
    cases hall with
    | cons htarget haround => exact .cons ⟨_, _, htarget, rfl⟩ (haround.imp hplain)

end TypeEntry

namespace Manifest

variable {m : Manifest} {e : TypeEntry}

theorem path_describe (h : e.Declarable) : (m.describe e).path =
    e.ns.toList ++ ((e.containing.map (·.name)).reverse ++ [e.name]) := by
  obtain ⟨-, -, -, hns, hcontaining, -⟩ := m.describe_eq e
  have hnames : (e.containing.map ContainingEntry.toDesc).map (·.name) =
      e.containing.map (·.name) := by
    rw [List.map_map]
    exact List.map_congr_left fun c _ => c.name_toDesc
  rw [TypeDesc.path, Declaration.nest, hns, hcontaining, TypeEntry.filter_ns h.ns,
    List.map_reverse, List.map_cons, List.reverse_cons, hnames, m.name_describe]

/-- **What the specification of an entry declares** is its type inside of the
types around it. -/
theorem specOf_declares (h : e.Declarable) : ∃ spec, m.specOf e = .ok spec ∧
    spec.ns = (m.describe e).ns ∧
      List.Forall₂ Declaration.Declares (Declaration.nest (m.describe e)) spec.declarations := by
  obtain ⟨spec, hspec, -, -, -⟩ := m.specOf_of_declarable h
  refine ⟨spec, hspec, ?_⟩
  obtain ⟨plain, hplain, hrest⟩ := Outcome.bind_eq_ok_iff.mp hspec
  obtain rfl : e.documented plain = spec := Except.ok.inj hrest
  have hdesc := emitting_eq_ok_iff.mp hplain
  refine ⟨?_, e.declares_documented hdesc⟩
  obtain ⟨declarations, -, ⟨⟩⟩ := Outcome.bind_eq_ok_iff.mp hdesc
  rw [TypeEntry.documented_eq]

/-- **The type of a member that is declared** is written with the namespace and
the name of the entry, and with what stands behind it. -/
theorem sourceName_resolve {member : MemberEntry} (hnamed : e.Named) (hdecl : e.Declarable)
    (hkeyword : TypeRef.ofKeyword? member.base = none)
    (hfind : m.findType? member.base = some e) :
    (m.resolve member.type).sourceName =
      globalAlias ++ ".".intercalate e.qualifiers ++ member.suffix := by
  have hbase : m.resolveBase member.base = e.toRef := by
    rw [resolveBase, hkeyword, hfind]
  have hresolve : m.resolve member.type =
      (m.resolveBase member.base).withSuffix member.suffix := rfl
  rw [hresolve, hbase, TypeRef.sourceName_withSuffix, member.trim_suffix,
    TypeEntry.sourceName_toRef hnamed hdecl.ns]

/-- Names between the namespace and the name of an entry make the path
longer. -/
theorem intercalate_qualifiers_eq_iff (e : TypeEntry) (around : List String) :
    ".".intercalate e.qualifiers = ".".intercalate (e.ns.toList ++ (around ++ [e.name])) ↔
      around = [] := by
  constructor
  · intro h
    by_contra hne
    have hlength := congrArg String.length h
    have hdot : (".").length = 1 := rfl
    rw [TypeEntry.qualifiers] at hlength
    cases hns : e.ns with
    | none =>
      rw [hns, Option.toList_none, List.nil_append, List.nil_append,
        String.intercalate_append_of_ne_nil hne (List.cons_ne_nil _ _)] at hlength
      simp only [String.length_append, hdot] at hlength
      omega
    | some ns =>
      rw [hns, Option.toList_some, String.intercalate_append_of_ne_nil (List.cons_ne_nil _ _)
        (List.cons_ne_nil _ _), String.intercalate_append_of_ne_nil (List.cons_ne_nil _ _)
        (List.append_ne_nil_of_left_ne_nil hne _),
        String.intercalate_append_of_ne_nil hne (List.cons_ne_nil _ _)] at hlength
      simp only [String.length_append, hdot] at hlength
      omega
  · rintro rfl
    rfl

/-- **A reference points to the declaration of an entry with nothing around
it**, and only to that. In a manifest that passes, the type of a member that
finds an entry is written with the namespace and the name of the entry and with
the suffix of the member. The file of the entry declares it at the path of its
description, and the two agree exactly when no types are around the entry. -/
theorem sourceName_resolve_eq_path_iff {source file : String} {member : MemberEntry}
    (hvalid : m.validate source file = .ok ()) (hkeyword : TypeRef.ofKeyword? member.base = none)
    (hfind : m.findType? member.base = some e) :
    (m.resolve member.type).sourceName =
      globalAlias ++ ".".intercalate (e.ns.toList ++ [e.name]) ++ member.suffix ∧
    (∃ spec, m.specOf e = .ok spec ∧ spec.ns = (m.describe e).ns ∧
      List.Forall₂ Declaration.Declares (Declaration.nest (m.describe e)) spec.declarations) ∧
    (m.describe e).path = e.ns.toList ++ ((e.containing.map (·.name)).reverse ++ [e.name]) ∧
    ((m.resolve member.type).sourceName =
        globalAlias ++ ".".intercalate (m.describe e).path ++ member.suffix ↔
      e.containing = []) := by
  have hmem : e ∈ m.types := List.mem_of_find?_eq_some hfind
  have hnamed := (named_of_validate hvalid).entries e hmem
  have hdecl := (declarable_of_validate hvalid).2 e hmem
  have hsource := sourceName_resolve hnamed hdecl hkeyword hfind
  refine ⟨hsource, specOf_declares hdecl, path_describe hdecl, ?_⟩
  rw [hsource, path_describe hdecl, String.append_left_inj, String.append_right_inj,
    intercalate_qualifiers_eq_iff, List.reverse_eq_nil_iff, List.map_eq_nil_iff]

/-- A member of an order is the array of an entry that stands in no other
type. -/
theorem sourceName_resolve_eq_path_array :
    let status : TypeEntry := { name := "Status", ns := some "Shop", kind := some .enumType }
    let member : MemberEntry := { name := "States", type := " Status? [ ]" }
    let m : Manifest := { types := [{ name := "Order", members := [member] }, status] }
    m.validate "" "shop.toml" = .ok () ∧
      (m.resolve member.type).sourceName = "global::Shop.Status?[]" := by
  intro status member m
  have hvalid : m.validate "" "shop.toml" = .ok () := by decide +kernel
  have hkeyword : TypeRef.ofKeyword? member.base = none := by decide +kernel
  have hfind : m.findType? member.base = some status := by decide +kernel
  obtain ⟨hsource, -, -, -⟩ := sourceName_resolve_eq_path_iff hvalid hkeyword hfind
  exact ⟨hvalid, hsource.trans (by decide +kernel)⟩

/-- **A reference that points to no declaration**: the type of a member is
written `global::Shop.Status`, while the entry is declared as
`Shop.Order.Status`. -/
theorem sourceName_resolve_ne_path :
    let status : TypeEntry :=
      { name := "Status", ns := some "Shop", kind := some .enumType, emitters := [],
        containing := [{ name := "Order" }] }
    let member : MemberEntry := { name := "State", type := "Status" }
    let order : TypeEntry :=
      { name := "Order", ns := some "Shop", modifiers := [.partialType], members := [member] }
    let m : Manifest := { types := [order, status] }
    m.validate "" "shop.toml" = .ok () ∧ m.findType? member.base = some status ∧
      (m.resolve member.type).sourceName = "global::Shop.Status" ∧
      (m.describe status).path = ["Shop", "Order", "Status"] ∧
      (m.resolve member.type).sourceName ≠
        globalAlias ++ ".".intercalate (m.describe status).path ++ member.suffix := by
  decide +kernel

end Manifest

end SharpSource
