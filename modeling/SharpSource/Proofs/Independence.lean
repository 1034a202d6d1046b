import SharpSource.Proofs.Agreement
import SharpSource.Proofs.Emission
import SharpSource.Proofs.Names

/-!
# What the file of an entry depends on

The file of an entry is made beside all types of its manifest: they are handed
to the emitters as siblings, and the specification lists them. All the same the
file depends on few of them. No built-in emitter looks at siblings or at the
list (`Builtin.agree_beside`), so the file is a function of the description of
the entry (`Manifest.fileOf_eq`). And the description asks for other entries in
one place only, to resolve the types of members: of an entry that is found it
takes the name, the namespace and the kind (`Manifest.describe_congr`).

So two manifests with the same options have the same file for an entry when the
entries that its members name agree that far. In a manifest with its names in
order no other entry can come between (`Manifest.findType?_eq_of_answers`):
neither the order of the entries nor those that no member names count.
-/

namespace SharpSource

/-! ### Siblings -/

/-- **A built-in emitter agrees** on specifications that differ in the other
types at most, beside whatever siblings. -/
theorem Builtin.agree_beside (b : Builtin) (spec : TypeSpec) (others : List Descriptor)
    (o : FileOptions) (siblings siblings' : Siblings) :
    b.emitter.Agree ⟨{ spec with others }, o, siblings⟩ ⟨spec, o, siblings'⟩ := by
  cases b <;> constructor <;> intros <;> rfl

/-- A file that built-in emitters put together is the same beside whatever
types. -/
theorem FileEmitter.generate_beside {f : FileEmitter} (hfile : f.fileName = none)
    (hslots : ∀ slot ∈ f.slots, ∃ b : Builtin, slot.emitter = b.emitter) (spec : TypeSpec)
    (others : List Descriptor) (siblings siblings' : Siblings) :
    f.generate { spec with others } siblings = f.generate spec siblings' := by
  have hname : f.nameOf { spec with others } = f.nameOf spec := by
    rw [nameOf, nameOf, hfile]
    rfl
  refine generate_congr rfl rfl rfl rfl hname fun slot hslot o => ?_
  obtain ⟨b, hemitter⟩ := hslots slot hslot
  rw [hemitter]
  exact b.agree_beside spec others o siblings siblings'

/-- A specification takes the list of other types as it is given. -/
theorem TypeSpec.ofDesc_others (d : TypeDesc) (others : List Descriptor) :
    TypeSpec.ofDesc d others = (TypeSpec.ofDesc d []).map fun s => { s with others } := by
  rw [ofDesc, ofDesc]
  cases (Declaration.nest d).mapM Declaration.ofDesc with
  | error e => rfl
  | ok declarations => rfl

/-- The specification with the comment of an entry, if it has one. -/
def TypeEntry.documented (e : TypeEntry) (spec : TypeSpec) : TypeSpec :=
  match e.doc with
  | some doc => spec.withDoc doc
  | none => spec

/-- A comment changes declarations only. -/
theorem TypeEntry.documented_eq (e : TypeEntry) (spec : TypeSpec) :
    e.documented spec = { spec with declarations := (e.documented spec).declarations } := by
  rw [documented]
  cases e.doc with
  | none => rfl
  | some doc =>
    rcases spec with ⟨ns, declarations, _, _, _, _⟩
    cases declarations <;> rfl

theorem TypeEntry.documented_others (e : TypeEntry) (spec : TypeSpec) (others : List Descriptor) :
    e.documented { spec with others } = { e.documented spec with others } := by
  rw [documented, documented]
  cases e.doc with
  | none => rfl
  | some doc =>
    cases hdecl : spec.declarations with
    | nil => simp only [TypeSpec.withDoc, hdecl]
    | cons target containing => simp only [TypeSpec.withDoc, hdecl]

/-- **What a reference takes** from the entry that it refers to. -/
def TypeEntry.referred (e : TypeEntry) : String × Option String × TypeKind :=
  (e.name, e.ns, e.typeKind)

theorem TypeEntry.toRef_congr {e e' : TypeEntry} (h : e.referred = e'.referred) :
    e.toRef = e'.toRef := by
  obtain ⟨hname, hrest⟩ := Prod.mk.inj h
  obtain ⟨hns, hkind⟩ := Prod.mk.inj hrest
  rw [toRef, toRef, hname, hns, hkind]

/-- The type of a member without its suffix. -/
def MemberEntry.base (e : MemberEntry) : String :=
  (TypeSuffix.split (Text.trim e.type)).1

namespace Manifest

variable {m m' : Manifest}

/-- **The file of an entry is a function of its description**, beside whatever
siblings. -/
theorem fileOf_eq (m : Manifest) (settings : Settings) (siblings : Siblings) (e : TypeEntry) :
    m.fileOf settings siblings e = (do
      let spec ← emitting e.name (TypeSpec.ofDesc (m.describe e) [])
      emitting e.name ((e.fileEmitter settings).generate (e.documented spec) .empty)) := by
  rw [fileOf, specOf, TypeSpec.ofDesc_others]
  cases TypeSpec.ofDesc (m.describe e) [] with
  | error err => rfl
  | ok spec =>
    change emitting e.name ((e.fileEmitter settings).generate (e.documented { spec with
      others := (m.types.filter (·.name != e.name)).map fun o => .ref o.toRef }) siblings) = _
    rw [TypeEntry.documented_others, FileEmitter.generate_beside]
    · rfl
    · rw [TypeEntry.fileEmitter_eq]
    · intro slot hslot
      obtain ⟨b, -, hb⟩ := TypeEntry.exists_builtin_of_mem_slots hslot
      exact ⟨b, hb⟩

/-! ### Types of members -/

/-- A base is resolved alike where it finds alike entries, or none. -/
theorem resolveBase_congr {base : String}
    (h : (m.findType? base).map TypeEntry.referred = (m'.findType? base).map TypeEntry.referred) :
    m.resolveBase base = m'.resolveBase base := by
  rw [resolveBase, resolveBase]
  -- A keyword goes before all entries, so only a base that is none is looked up.
  cases TypeRef.ofKeyword? base with
  | some t => rfl
  | none =>
    cases hfind : m.findType? base with
    | none =>
      rw [hfind, Option.map_none, eq_comm, Option.map_eq_none_iff] at h
      rw [h]
    | some e =>
      rw [hfind, Option.map_some, eq_comm, Option.map_eq_some_iff] at h
      obtain ⟨e', hfind', hreferred⟩ := h
      rw [hfind']
      exact (TypeEntry.toRef_congr hreferred).symm

/-- A member is the same where its base finds alike entries, or none. -/
theorem memberOf_congr (declaring : TypeRef) {member : MemberEntry}
    (h : (m.findType? member.base).map TypeEntry.referred =
      (m'.findType? member.base).map TypeEntry.referred) :
    m.memberOf declaring member = m'.memberOf declaring member := by
  have htype : m.resolve member.type = m'.resolve member.type := by
    rw [resolve, resolve]
    exact congrArg (TypeRef.withSuffix · _) (resolveBase_congr h)
  rw [memberOf, memberOf, htype]

/-- **The description of an entry** asks for no other entries than those that
its members name. -/
theorem describe_congr {t : TypeEntry}
    (h : ∀ member ∈ t.members, (m.findType? member.base).map TypeEntry.referred =
      (m'.findType? member.base).map TypeEntry.referred) :
    m.describe t = m'.describe t := by
  have hmembers : t.members.map (m.memberOf t.toRef) = t.members.map (m'.memberOf t.toRef) :=
    List.map_congr_left fun member hmember => memberOf_congr t.toRef (h member hmember)
  rw [describe, describe, hmembers]

/-- **Entries that do not answer do not count**: a text finds the same in two
manifests with the same entries that answer to it. -/
theorem findType?_eq_of_answers (hm : m.Named) (hm' : m'.Named) {text : String}
    (h : ∀ e : TypeEntry, e.Answers text → (e ∈ m.types ↔ e ∈ m'.types)) :
    m.findType? text = m'.findType? text := by
  refine Option.ext fun e => ?_
  rw [findType?_eq_some_iff hm, findType?_eq_some_iff hm', and_congr_left_iff]
  exact h e

/-! ### Whole files -/

/-- The file of an entry under the settings of its manifest, beside all types of
the manifest. -/
def fileFor (m : Manifest) (e : TypeEntry) : Except ManifestError SourceFile := do
  let settings ← m.settings
  m.fileOf settings m.siblings e

/-- Manifests with the same options give an entry the same file when they
describe it alike. -/
theorem fileFor_eq_of_describe (hgenerator : m.generator = m'.generator)
    (hoptions : m.options = m'.options) {t : TypeEntry} (h : m.describe t = m'.describe t) :
    m.fileFor t = m'.fileFor t := by
  have hsettings : m.settings = m'.settings := by
    rw [settings, settings, hgenerator, hoptions]
  simp only [fileFor, fileOf_eq, hsettings, h]

/-- **The file of an entry depends on itself and on the entries that its members
name.** In two manifests that pass, with the same assembly and the same options,
an entry has the same file, or fails in the same way, when the bases of its
members find entries with the same name, namespace and kind. So it does when the
manifests have the same entries that answer to such a base, whatever else they
have, and when the one has the entries of the other in another order. -/
theorem fileFor_eq_of_lookups {source file source' file' : String}
    (hm : m.validate source file = .ok ()) (hm' : m'.validate source' file' = .ok ())
    (hgenerator : m.generator = m'.generator) (hoptions : m.options = m'.options) :
    (∀ t : TypeEntry, (∀ member ∈ t.members, (m.findType? member.base).map TypeEntry.referred =
        (m'.findType? member.base).map TypeEntry.referred) → m.fileFor t = m'.fileFor t) ∧
    (∀ t : TypeEntry, (∀ e : TypeEntry, (∃ member ∈ t.members, e.Answers member.base) →
        (e ∈ m.types ↔ e ∈ m'.types)) → m.fileFor t = m'.fileFor t) ∧
    (m.types.Perm m'.types → ∀ t : TypeEntry, m.fileFor t = m'.fileFor t) := by
  have hlookups : ∀ t : TypeEntry, (∀ member ∈ t.members,
      (m.findType? member.base).map TypeEntry.referred =
        (m'.findType? member.base).map TypeEntry.referred) → m.fileFor t = m'.fileFor t :=
    fun t h => fileFor_eq_of_describe hgenerator hoptions (describe_congr h)
  have hanswers : ∀ t : TypeEntry, (∀ e : TypeEntry, (∃ member ∈ t.members,
      e.Answers member.base) → (e ∈ m.types ↔ e ∈ m'.types)) → m.fileFor t = m'.fileFor t := by
    refine fun t h => hlookups t fun member hmember => ?_
    rw [findType?_eq_of_answers (named_of_validate hm) (named_of_validate hm')
      fun e he => h e ⟨member, hmember, he⟩]
  exact ⟨hlookups, hanswers, fun hperm t => hanswers t fun e _ => hperm.mem_iff⟩

/-- Entries that stand in another order, one of them edited in what no reference
takes from it and one that no member names: the file of `Order` stays. -/
theorem fileFor_eq_of_lookups_edited :
    let order : TypeEntry :=
      { name := "Order", ns := some "Shop"
        members := [{ name := "States", type := "Status?[]" }, { name := "Count", type := "int" }] }
    let status : TypeEntry := { name := "Status", ns := some "Shop", kind := some .enumType }
    let m : Manifest := { types := [order, status, { name := "Item" }] }
    let m' : Manifest :=
      { types := [{ name := "Note", kind := some .structType },
          { status with doc := some "How far an order is." }, order] }
    m.validate "" "shop.toml" = .ok () ∧ m'.validate "" "shop.toml" = .ok () ∧
      m.fileFor order = m'.fileFor order ∧ (m.fileFor order).toOption.isSome := by
  intro order status m m'
  have hm : m.validate "" "shop.toml" = .ok () := by decide +kernel
  have hm' : m'.validate "" "shop.toml" = .ok () := by decide +kernel
  obtain ⟨hlookups, -, -⟩ := fileFor_eq_of_lookups hm hm' rfl rfl
  refine ⟨hm, hm', hlookups order ?_, by decide +kernel⟩
  decide +kernel

end Manifest

end SharpSource
