import Mathlib.Logic.Relation
import SharpSource.Proofs.Registrations
import SharpSource.Proofs.RootedNames

/-!
# The identity of an entry

An entry becomes a type in more than one way. Its description takes the name and
the namespace over and puts the qualified name together when that is read. Its
reference starts from the full name as a text, and finds the simple name in it.
The description turns into a reference as well. All of these have one identity
(`TypeEntry.identity`), and so has the type that declares the members of the
entry.

For the description this needs nothing of the entry: a name that is remembered
is the one that would be computed, so the identity stays the same however often
names are read (`TypeDesc.identity_of_reads`). For the reference it rests on the
characters of names. With no blank, no colon and no angle bracket in the full
name, what is trimmed, cut and searched is all of it, and behind its last dot is
the name (`TypeEntry.identity_toRef`).

The way back is the lookup. An entry is found under its name and under its full
name, with the alias of the root or without it, and as its name is no keyword, a
member that asks for its type in one of these ways has it
(`Manifest.resolveBase_of_answers`).
-/

namespace SharpSource

/-! ### Descriptions whose names are read -/

namespace TypeDesc

/-- A qualified name of a description is **read**, and remembered from then
on. -/
inductive Reads : TypeDesc → TypeDesc → Prop
  | typeName (d : TypeDesc) : Reads d d.rememberTypeName
  | assemblyName (d : TypeDesc) : Reads d d.rememberAssemblyName

theorem identity_rememberTypeName (d : TypeDesc) : d.rememberTypeName.identity = d.identity := rfl

theorem identity_rememberAssemblyName (d : TypeDesc) :
    d.rememberAssemblyName.identity = d.identity := by
  rw [rememberAssemblyName]
  split
  · rfl
  · exact d.identity_rememberTypeName

/-- **Reading keeps the identity**, in whatever order names are read. -/
theorem identity_of_reads {d d' : TypeDesc} (h : Relation.ReflTransGen Reads d d') :
    d'.identity = d.identity := by
  induction h with
  | refl => rfl
  | tail _ hread ih =>
    cases hread with
    | typeName => exact (identity_rememberTypeName _).trans ih
    | assemblyName => exact (identity_rememberAssemblyName _).trans ih

end TypeDesc

/-! ### The identity of an entry -/

/-- **The identity of an entry**: its name, its full name from the root, and its
kind. -/
def TypeEntry.identity (e : TypeEntry) : Identity where
  name := e.name
  qualifiedName := globalAlias ++ e.fullName
  isValue := e.typeKind.isValue
  kind := e.typeKind
  special := .ordinary

namespace TypeRef

/-- In a name without angle brackets the simple name follows the last dot. -/
theorem toList_simpleName_of_not_mem {name : String} (h : '<' ∉ name.toList) :
    (simpleName name).toList = afterLastDot name.toList := by
  have hall : ∀ c ∈ name.toList, (c != '<') = true := fun c hc => by
    rw [bne_iff_ne]
    rintro rfl
    exact h hc
  rw [toList_simpleName, cutGenerics, List.takeWhile_eq_self_iff.mpr hall,
    List.dropWhile_eq_nil_iff.mpr hall, List.append_nil]

end TypeRef

namespace TypeEntry

variable {e : TypeEntry}

/-- An entry answers to its name. -/
theorem Named.answers_name (h : e.Named) : e.Answers e.name := by
  have hcolon : ':' ∉ e.name.toList := fun hc =>
    (plain_of_isContinue (Or.inr (h.name _ hc))).2 rfl
  exact Or.inl (unaliased_eq_self hcolon).symm

/-- An entry answers to its full name. -/
theorem Named.answers_fullName (h : e.Named) : e.Answers e.fullName :=
  Or.inr (unaliased_eq_self h.plain_fullName.2).symm

/-- An entry answers to its full name from the root. -/
theorem answers_globalAlias_fullName (e : TypeEntry) : e.Answers (globalAlias ++ e.fullName) :=
  Or.inr (unaliased_globalAlias_append e.fullName).symm

/-- The simple name of the full name is the name. -/
theorem Named.simpleName_fullName (h : e.Named) : TypeRef.simpleName e.fullName = e.name := by
  have hangle : '<' ∉ e.fullName.toList := fun hc => by
    rcases h.isContinue_fullName _ hc with hdot | hcontinue
    · exact absurd hdot (by decide)
    · exact absurd hcontinue (by decide)
  refine String.toList_inj.mp ?_
  rw [TypeRef.toList_simpleName_of_not_mem hangle, toList_name_of_answers h h.answers_fullName,
    unaliased_eq_self h.plain_fullName.2]

/-- **The reference to an entry has its identity.** -/
theorem identity_toRef (h : e.Named) : e.toRef.identity = e.identity := by
  obtain ⟨hblank, hcolon⟩ := h.plain_fullName
  rw [toRef_eq, TypeRef.ofName_of_plain hblank hcolon, h.simpleName_fullName]
  rfl

end TypeEntry

/-! ### Siblings -/

namespace Manifest

variable {m : Manifest} {e : TypeEntry}

/-- Each entry is among the siblings under its name. -/
theorem get?_siblings (hnamed : m.Named) (he : e ∈ m.types) :
    m.siblings.get? e.name = some (.ref e.toRef) := by
  have hnames : (m.types.map fun e => (e.name, Descriptor.ref e.toRef)).map (·.1) =
      m.types.map (·.name) := by
    rw [List.map_map]
    rfl
  exact Catalog.get?_putAll_of_mem (by rw [hnames]; exact hnamed.nodup)
    (List.mem_map_of_mem he)

/-- **Beside an entry** its specification has the references to all others. -/
theorem others_specOf {spec : TypeSpec} (h : m.specOf e = .ok spec) :
    spec.others = (m.types.filter (·.name != e.name)).map fun o => .ref o.toRef := by
  obtain ⟨plain, hplain, hrest⟩ := Outcome.bind_eq_ok_iff.mp h
  obtain rfl : e.documented plain = spec := Except.ok.inj hrest
  obtain ⟨declarations, -, ⟨⟩⟩ := Outcome.bind_eq_ok_iff.mp (emitting_eq_ok_iff.mp hplain)
  rw [TypeEntry.documented_eq]

/-! ### Descriptions of entries -/

/-- A description starts as an ordinary type with nothing remembered, and what
is set on the way leaves that as it is. -/
theorem describe_starts (m : Manifest) (e : TypeEntry) :
    (m.describe e).isValue = e.typeKind.isValue ∧ (m.describe e).special = .ordinary ∧
      (m.describe e).remembered = {} := by
  rw [describe, TypeDesc.withModifiers_eq]
  cases e.ns <;> cases e.base <;> exact ⟨rfl, rfl, rfl⟩

/-- **The description of an entry has its identity**, whatever its names are
made of. -/
theorem identity_describe (m : Manifest) (e : TypeEntry) :
    (m.describe e).identity = e.identity := by
  obtain ⟨hvalue, hspecial, hremembered⟩ := m.describe_starts e
  obtain ⟨-, hkind, -, hns, -, -⟩ := m.describe_eq e
  have hfull : (m.describe e).fullName = e.fullName := by
    rw [TypeFacts.fullName, hns, m.name_describe]
    rfl
  have hqualified : (m.describe e).assemblyName = globalAlias ++ e.fullName := by
    rw [TypeDesc.assemblyName, TypeDesc.typeName, hremembered, hfull]
    rfl
  rw [TypeDesc.identity, TypeEntry.identity, m.name_describe, hqualified, hvalue, hkind, hspecial]

theorem declaring_memberOf (m : Manifest) (declaring : TypeRef) (e : MemberEntry) :
    (m.memberOf declaring e).name = e.name ∧ (m.memberOf declaring e).declaring = declaring := by
  rw [memberOf]
  cases e.field <;> exact ⟨rfl, rfl⟩

/-- **The members of an entry are declared by it**, each under its own name. -/
theorem forall₂_members_describe (hnamed : e.Named) :
    List.Forall₂
      (fun entry member => member.name = entry.name ∧ member.declaring.identity = e.identity)
      e.members (m.describe e).members := by
  obtain ⟨-, -, -, -, -, hmembers⟩ := m.describe_eq e
  rw [hmembers, List.forall₂_map_right_iff, List.forall₂_same]
  intro entry _
  obtain ⟨hname, hdeclaring⟩ := m.declaring_memberOf e.toRef entry
  exact ⟨hname, by rw [hdeclaring, TypeEntry.identity_toRef hnamed]⟩

end Manifest

/-! ### Looking an entry up -/

/-- No keyword stands for an entry that is in order. -/
theorem TypeEntry.WellFormed.ofKeyword?_eq_none {e : TypeEntry} {text : String}
    (h : e.WellFormed) (hanswers : e.Answers text) : TypeRef.ofKeyword? text = none := by
  have hkeywords : ∀ keyword ∈ SpecialType.keywordTable.map (·.2.1),
      keyword ∈ Identifier.keywords ∧
        TypeRef.afterLastDot (unaliased keyword).toList = keyword.toList := by
    decide +kernel
  rw [Option.eq_none_iff_forall_ne_some]
  intro t ht
  obtain ⟨hreserved, hlast⟩ := hkeywords text (TypeRef.mem_of_ofKeyword? ht)
  have hname : e.name = text := by
    rw [← String.toList_inj, toList_name_of_answers h.named hanswers, hlast]
  exact h.name.1 (hname ▸ hreserved)

namespace Manifest

variable {m : Manifest} {e : TypeEntry}

/-- **Who asks for an entry has it**, in each way in which the entry answers. -/
theorem resolveBase_of_answers {text : String} (hm : m.WellFormed) (he : e ∈ m.types)
    (hanswers : e.Answers text) : m.findType? text = some e ∧ m.resolveBase text = e.toRef := by
  have hfind := (findType?_eq_some_iff hm.named).mpr ⟨he, hanswers⟩
  refine ⟨hfind, ?_⟩
  rw [resolveBase, (hm.entries e he).ofKeyword?_eq_none hanswers, hfind]

/-- **All that stands for an entry has its identity.** In a manifest that passes
this holds of the description of each entry, however many of its names have been
read, of the reference made from the description, of the reference to the entry,
and of the type that declares its members. It is the reference that the other
entries find as a sibling and have beside them, and whoever asks for the name of
the entry, or for the full name with or without the alias of the root, finds the
entry and refers to it. -/
theorem identities_agree {source file : String} (hvalid : m.validate source file = .ok ())
    (he : e ∈ m.types) :
    (∀ d, Relation.ReflTransGen TypeDesc.Reads (m.describe e) d →
      d.identity = e.identity ∧ d.toRef.identity = e.identity) ∧
    e.toRef.identity = e.identity ∧
    List.Forall₂ (fun entry member => member.name = entry.name ∧
        member.declaring.identity = e.identity)
      e.members (m.describe e).members ∧
    m.siblings.get? e.name = some (.ref e.toRef) ∧
    (∀ o ∈ m.types, o.name ≠ e.name →
      ∃ spec, m.specOf o = .ok spec ∧ Descriptor.ref e.toRef ∈ spec.others) ∧
    ∀ text ∈ [e.name, e.fullName, globalAlias ++ e.fullName],
      m.findType? text = some e ∧ m.resolveBase text = e.toRef := by
  obtain ⟨hm, -⟩ := validate_ok_iff.mp hvalid
  have hnamed := hm.named
  have hentry := hnamed.entries e he
  refine ⟨?_, TypeEntry.identity_toRef hentry, forall₂_members_describe hentry,
    get?_siblings hnamed he, ?_, ?_⟩
  · intro d hreads
    have hidentity := (TypeDesc.identity_of_reads hreads).trans (m.identity_describe e)
    exact ⟨hidentity, d.identity_toRef.trans hidentity⟩
  · intro o ho hne
    obtain ⟨spec, hspec, -, -, -⟩ := m.specOf_of_declarable (hm.entries o ho).declarable
    refine ⟨spec, hspec, ?_⟩
    rw [others_specOf hspec]
    exact List.mem_map_of_mem (List.mem_filter.mpr ⟨he, by simpa using Ne.symm hne⟩)
  · intro text htext
    simp only [List.mem_cons, List.not_mem_nil, or_false] at htext
    refine resolveBase_of_answers hm he ?_
    rcases htext with rfl | rfl | rfl
    · exact hentry.answers_name
    · exact hentry.answers_fullName
    · exact e.answers_globalAlias_fullName

/-- A struct of a namespace, and the reference that a member has to it by its
full name. -/
theorem identities_agree_struct :
    let price : TypeEntry :=
      { name := "Price", ns := some "Shop.Billing", kind := some .structType,
        members := [{ name := "Amount", type := "decimal" }] }
    let m : Manifest := { types := [{ name := "Order" }, price] }
    m.validate "" "shop.toml" = .ok () ∧ price ∈ m.types ∧
      price.toRef.identity =
        ⟨"Price", "global::Shop.Billing.Price", true, .structType, .ordinary⟩ ∧
      m.resolveBase "Shop.Billing.Price" = price.toRef := by
  intro price m
  have hvalid : m.validate "" "shop.toml" = .ok () := by decide +kernel
  have hmem : price ∈ m.types := by decide +kernel
  obtain ⟨-, hidentity, -, -, -, hlookup⟩ := identities_agree hvalid hmem
  exact ⟨hvalid, hmem, hidentity.trans (by decide +kernel),
    (hlookup "Shop.Billing.Price" (by decide +kernel)).2⟩

end Manifest

end SharpSource
