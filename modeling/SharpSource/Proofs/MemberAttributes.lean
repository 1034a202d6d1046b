import Mathlib.Data.Finset.Max
import SharpSource.Emitter.Properties
import SharpSource.FileEmitter
import SharpSource.Proofs.AttributeLiterals
import SharpSource.Proofs.UsingBlocks

/-!
# Attributes of members

The attributes of a type go through `Attribute.normalize`, those of its members
do not: an attribute of a member is written between brackets as it was given. So
the lines above a member are those that a type with the same attributes has,
exactly when normalizing leaves every one of them alone
(`Member.attributeLines_eq_iff`), that is, when they are trimmed and not made of
sections. A blank one is made of no sections.

Why the lines cannot agree by accident: an attribute that does not stand for
itself stands for shorter ones only (`Attribute.length_lt_of_mem_normalize`).
The longest of those in a list does not appear among what the list stands for,
so the two lists differ in it.
-/

namespace SharpSource

namespace Attribute

/-! ### Lists that normalizing leaves alone -/

/-- A section holds less than the text does. -/
theorem Sections.length_lt {ws : List (List Char)} {cs : List Char} (h : Sections ws cs)
    {w : List Char} (hw : w ∈ ws) : w.length < cs.length := by
  induction h with
  | nil => cases hw
  | @cons blanks content rest contents _ _ _ ih =>
    rw [List.length_append, List.length_cons, List.length_append, List.length_cons]
    rcases List.mem_cons.mp hw with rfl | hw
    · omega
    · have hlt := ih hw
      omega

/-- **What an attribute stands for is shorter**, unless it stands for itself. -/
theorem length_lt_of_mem_normalize {a b : String} (hb : b ∈ normalize a) (ha : normalize a ≠ [a]) :
    b.toList.length < a.toList.length := by
  simp only [normalize] at hb ha
  split at hb
  · rename_i contents hread
    split at hread
    · obtain ⟨w, hw, rfl⟩ := List.mem_map.mp (List.mem_of_mem_filter hb)
      have hsections : Sections (contents.map String.toList) (Text.trim a).toList :=
        sections?_eq_some_iff.mp hread
      calc (Text.trim w).toList.length ≤ w.toList.length := (Text.trim_sublist w).length_le
        _ < (Text.trim a).toList.length := hsections.length_lt (List.mem_map_of_mem hw)
        _ ≤ a.toList.length := (Text.trim_sublist a).length_le
    · cases hread
  · rename_i hread
    rw [hread] at ha
    split at hb
    · cases hb
    · rename_i hne
      rw [List.mem_singleton] at hb
      subst hb
      -- Trimming took something away.
      refine lt_of_le_of_ne (Text.trim_sublist a).length_le fun hlength => ha ?_
      have htrim : Text.trim a = a :=
        String.toList_injective ((Text.trim_sublist a).eq_of_length hlength)
      rw [htrim] at hne ⊢
      exact if_neg hne

/-- **The attributes that a list stands for are the list itself** exactly when
it repeats none and every one of them stands for itself. -/
theorem distinct_flatMap_normalize_eq_iff {attributes : List String} (h : attributes.Nodup) :
    Text.distinct (attributes.flatMap normalize) = attributes ↔
      ∀ a ∈ attributes, normalize a = [a] := by
  constructor
  · intro heq
    by_contra hsome
    obtain ⟨a₀, ha₀, hne₀⟩ := not_forall₂.mp hsome
    -- The longest attribute that does not stand for itself must come from another
    -- one, and a longer.
    obtain ⟨a, ha, hlongest⟩ :=
      (attributes.toFinset.filter fun a => normalize a ≠ [a]).exists_max_image
        (fun a => a.toList.length) ⟨a₀, by simp [ha₀, hne₀]⟩
    rw [Finset.mem_filter, List.mem_toFinset] at ha
    obtain ⟨b, hb, hab⟩ : ∃ b ∈ attributes, a ∈ normalize b := by
      rw [← List.mem_flatMap, ← Text.mem_distinct, heq]
      exact ha.1
    by_cases hself : normalize b = [b]
    · rw [hself, List.mem_singleton] at hab
      exact ha.2 (hab ▸ hself)
    · have hle := hlongest b (by simp [hb, hself])
      exact absurd (length_lt_of_mem_normalize hab hself) (not_lt_of_ge hle)
  · intro hall
    have hflat : attributes.flatMap normalize = attributes := by
      rw [List.flatMap_congr hall, List.flatMap_singleton']
    rw [hflat, Text.distinct_eq_self h]

end Attribute

/-! ### Above a member and above a type -/

namespace Member

open FileEmitter (attributesOf contributions)

/-- **Members are written like types where normalizing changes nothing.** Take a
file with one line for each attribute and with none from its options or its
emitters, and a type with the attributes of a member, none of them twice. The
type has a line for each attribute that they stand for, each once. The member
has the same lines exactly when every attribute is trimmed and not made of
sections, and then it is written with them above its declaration, whatever the
level. -/
theorem attributeLines_eq_iff {m : Member} {o : FileOptions} {spec : TypeSpec}
    {ps : List Participant} (hsame : spec.attributes = m.attributes) (hnodup : m.attributes.Nodup)
    (hseparate : o.combineAttributes = false) (hdefaults : o.attributes = [])
    (hps : contributions Emitter.attributes ps = []) :
    let typeLines := FileEmitter.attributeLines o (attributesOf o spec ps)
    let bare := ∀ a ∈ m.attributes,
      Text.trim a = a ∧ ¬∃ contents, Attribute.IsSections contents a
    typeLines = (Text.distinct (m.attributes.flatMap Attribute.normalize)).map
      (fun a => "[" ++ a ++ "]") ∧
    (m.attributeLines = typeLines ↔ bare) ∧
    (bare → ∀ w, Member.write w m =
      m.declaration.map fun declared => (w.lines typeLines).line declared) := by
  intro typeLines bare
  have htype : typeLines = (Text.distinct (m.attributes.flatMap Attribute.normalize)).map
      fun a => "[" ++ a ++ "]" := by
    simp only [typeLines, attributesOf, hdefaults, hps, hsame, List.nil_append, List.append_nil,
      FileEmitter.attributeLines, hseparate]
    cases Text.distinct (m.attributes.flatMap Attribute.normalize) with
    | nil => rfl
    | cons a attributes => rfl
  have hinjective : Function.Injective fun a : String => "[" ++ a ++ "]" := by
    intro a b hab
    simpa [← String.toList_inj] using hab
  have hlines : m.attributeLines = typeLines ↔ bare := by
    rw [htype, attributeLines, (List.map_injective_iff.mpr hinjective).eq_iff, eq_comm,
      Attribute.distinct_flatMap_normalize_eq_iff hnodup]
    exact forall₂_congr fun a _ => Attribute.normalize_eq_self_iff
  refine ⟨htype, hlines, fun hbare w => ?_⟩
  rw [Member.write, hlines.mpr hbare]
  cases m.declaration with
  | error e => rfl
  | ok declared => rfl

/-- Attributes without brackets, one of them with an array in it, and one with
brackets that do not match. -/
theorem attributeLines_eq_iff_bare :
    let m : Member :=
      { property "Total" (.ofName "Shop.Money" .structType) (.ofName "Order" .classType) with
        attributes := ["Key", "Index(new[] \x7b 1 \x7d)", "[Open"] }
    let spec : TypeSpec :=
      { ns := none, declarations := ["class Order"], target := .ref (.ofName "Order" .classType),
        attributes := m.attributes }
    m.attributes.Nodup ∧
      m.attributeLines = FileEmitter.attributeLines {} (attributesOf {} spec []) ∧
      m.attributeLines = ["[Key]", "[Index(new[] \x7b 1 \x7d)]", "[[Open]"] := by
  intro m spec
  have hnodup : m.attributes.Nodup := by decide +kernel
  have hbare : ∀ a ∈ m.attributes,
      Text.trim a = a ∧ ¬∃ contents, Attribute.IsSections contents a := by
    refine List.forall_mem_cons.mpr ⟨?_, List.forall_mem_cons.mpr ⟨?_,
      List.forall_mem_singleton.mpr ?_⟩⟩
    · exact Attribute.normalize_eq_self_iff.mp (by decide +kernel)
    · exact Attribute.normalize_eq_self_iff.mp (by decide +kernel)
    · exact Attribute.normalize_eq_self_iff.mp (by decide +kernel)
  obtain ⟨-, hiff, -⟩ := @attributeLines_eq_iff m {} spec [] rfl hnodup rfl rfl rfl
  exact ⟨hnodup, hiff.mpr hbare, rfl⟩

/-- **Brackets and blanks on a member** are kept where those on its type are
not: for the attributes of a section, of two sections, with blanks and of blanks
alone. -/
theorem attributeLines_ne_typeLines :
    let attributes := ["[Obsolete]", "[A][B]", " Key ", " "]
    let m : Member :=
      { property "Total" (.ofName "Shop.Money" .structType) (.ofName "Order" .classType) with
        attributes }
    let spec : TypeSpec :=
      { ns := none, declarations := ["public class Order"],
        target := .ref (.ofName "Order" .classType), attributes, members := [m] }
    let f : FileEmitter := { slots := [⟨.properties, some {}⟩] }
    attributes.Nodup ∧
      FileEmitter.attributeLines {} (attributesOf {} spec []) =
        ["[Obsolete]", "[A]", "[B]", "[Key]"] ∧
      m.attributeLines = ["[[Obsolete]]", "[[A][B]]", "[ Key ]", "[ ]"] ∧
      f.generate spec .empty = .ok ⟨"Order.g.cs",
        "// <auto-generated/>\n\n#nullable enable annotations\n#nullable disable warnings\n\n" ++
          "[Obsolete]\n[A]\n[B]\n[Key]\npublic class Order\n\x7b\n" ++
          "    [[Obsolete]]\n    [[A][B]]\n    [ Key ]\n    [ ]\n" ++
          "    public global::Shop.Money Total \x7b get; set; \x7d\n\x7d"⟩ := by
  decide +kernel

end Member

end SharpSource
