import SharpSource.Proofs.Agreement
import SharpSource.Proofs.Equality
import SharpSource.Proofs.Pieces

/-!
# Specifications as keys

A file may be kept under its specification and taken from there when an equal
specification comes again. This is sound as far as equal specifications have
equal files. Equality sees no more of a reference than its qualified name, on
purpose; what is written for a reference is another matter. The type of a
member is written by its source name, which may be a keyword or a name given
for it, and a file is called by the simple name of its target.

So there are equal specifications with different files. These two names are all
that can make the difference: where they agree, every built-in emitter agrees on
the two specifications (`Builtin.agree`), and so they have the same file.
-/

namespace SharpSource

/-! ### Members that are written alike -/

/-- **Two members are written alike** when they differ in the references to
types at most, and their own types have one source name. -/
def Member.Alike (a b : Member) : Prop :=
  b = { a with type := b.type, declaring := b.declaring } ∧ a.type.sourceName = b.type.sourceName

namespace Member.Alike

variable {a b : Member}

theorem token_eq (h : a.Alike b) : a.token = b.token := by
  rw [token, token, h.1]

theorem text_eq (h : a.Alike b) (i : Indent) (level : Nat) : a.text i level = b.text i level := by
  obtain ⟨hb, hname⟩ := h
  have hdeclaration : a.declaration = b.declaration := by
    rw [hb]
    simp only [declaration, propertyLine, fieldLine, accessor, token, hname]
  have hattributes : a.attributeLines = b.attributeLines := by
    rw [hb]
    rfl
  rw [text, text, hdeclaration, hattributes]

theorem comparison_eq (h : a.Alike b) : Emitter.comparison a = Emitter.comparison b := by
  unfold Emitter.comparison
  rw [h.2, h.token_eq]

end Member.Alike

/-- Equal members with the same source names are written alike. -/
theorem alike_of_beq {ms ms' : List Member} (h : (ms == ms') = true)
    (hnames : ms.map (·.type.sourceName) = ms'.map (·.type.sourceName)) :
    List.Forall₂ Member.Alike ms ms' := by
  have hbeq := forall₂_of_beq h
  induction hbeq with
  | nil => exact .nil
  | cons hm hms ih =>
    rw [List.cons_beq_cons, Bool.and_eq_true] at h
    rw [List.map_cons, List.map_cons, List.cons.injEq] at hnames
    exact .cons ⟨(Member.beq_iff.mp hm).1, hnames.1⟩ (ih h.2 hnames.2)

/-- What is a function of each member is the same for members that are written
alike. -/
theorem map_eq_of_alike {β : Type} {f : Member → β} {ms ms' : List Member}
    (h : List.Forall₂ Member.Alike ms ms') (hf : ∀ a b, Member.Alike a b → f a = f b) :
    ms.map f = ms'.map f := by
  induction h with
  | nil => rfl
  | cons hm _ ih => rw [List.map_cons, List.map_cons, hf _ _ hm, ih]

theorem isEmpty_eq_of_alike {ms ms' : List Member} (h : List.Forall₂ Member.Alike ms ms') :
    ms.isEmpty = ms'.isEmpty := by
  cases h <;> rfl

/-! ### Targets -/

open Emitter (equatableTarget?)

/-- Equal descriptions are the same in what decides whether and how they are
made equatable. -/
theorem TypeDesc.facts_eq_of_beq {d d' : TypeDesc} (h : (d == d') = true) :
    d.isRecord = d'.isRecord ∧ d.isStatic = d'.isStatic ∧ d.kind = d'.kind ∧
      d.isValue = d'.isValue := by
  rw [(TypeFacts.beq_iff.mp (TypeDesc.facts_beq_of_beq h)).1]
  exact ⟨rfl, rfl, rfl, rfl⟩

/-- Of two equal targets both can be made equatable or neither, and what is
written refers to them in the same way. -/
theorem equatableTarget?_of_beq {a b : TypeSpec} (h : (a.target == b.target) = true) :
    (equatableTarget? a = none ∧ equatableTarget? b = none) ∨
      ∃ d d', equatableTarget? a = some d ∧ equatableTarget? b = some d' ∧
        d.genericName = d'.genericName ∧ d.isValue = d'.isValue := by
  rw [equatableTarget?, equatableTarget?]
  cases ha : a.target with
  | ref t =>
    cases hb : b.target with
    | ref t' => exact Or.inl ⟨rfl, rfl⟩
    | desc d' =>
      -- A description and a reference are never equal.
      rw [ha, hb] at h
      cases h
  | desc d =>
    cases hb : b.target with
    | ref t' =>
      rw [ha, hb] at h
      cases h
    | desc d' =>
      rw [ha, hb] at h
      have hname : d.genericName = d'.genericName := TypeDesc.genericName_eq_of_beq h
      obtain ⟨hrecord, hstatic, hkind, hvalue⟩ :=
        TypeDesc.facts_eq_of_beq (show (d == d') = true from h)
      simp only [Descriptor.desc?, Option.filter_some, hrecord, hstatic, hkind]
      split
      · exact Or.inr ⟨d, d', rfl, rfl, hname, hvalue⟩
      · exact Or.inl ⟨rfl, rfl⟩

/-! ### Emitters -/

/-- What is written to make equal targets equatable is the same for members that
are written alike. -/
theorem equatablePiece_eq {c c' : Context} {d d' : TypeDesc} (hoptions : c.options = c'.options)
    (hmembers : List.Forall₂ Member.Alike c.spec.members c'.spec.members)
    (hname : d.genericName = d'.genericName) (hvalue : d.isValue = d'.isValue) (level : Nat)
    (i : Indent) : Emitter.equatablePiece c d level i = Emitter.equatablePiece c' d' level i := by
  have hcomparisons := map_eq_of_alike hmembers fun _ _ h => h.comparison_eq
  have hhashes : c.spec.members.map (fun m => "hash.Add(" ++ m.token ++ ");") =
      c'.spec.members.map (fun m => "hash.Add(" ++ m.token ++ ");") :=
    map_eq_of_alike hmembers fun _ _ h => by rw [h.token_eq]
  have hempty := isEmpty_eq_of_alike hmembers
  unfold Emitter.equatablePiece Emitter.equalsLine Emitter.objectEqualsLine Emitter.absentMark
    Emitter.equalsBody Emitter.hashBody Emitter.comparisonStatement
  simp only [hoptions, hname, hvalue, hcomparisons, hhashes, hempty]

/-- The built-in emitters that write something about each member, and so its
type. -/
def Builtin.WritesMembers : Builtin → Prop
  | properties | equatable => True
  | snippet _ => False

/-- **A built-in emitter agrees** on equal specifications, with the same source
names if it writes members. -/
theorem Builtin.agree (builtin : Builtin) {a b : TypeSpec} (h : (a == b) = true)
    (hnames : builtin.WritesMembers →
      a.members.map (·.type.sourceName) = b.members.map (·.type.sourceName))
    (o : FileOptions) (siblings : Siblings) :
    builtin.emitter.Agree ⟨a, o, siblings⟩ ⟨b, o, siblings⟩ := by
  obtain ⟨-, -, htarget, -, hmembers, -⟩ := TypeSpec.beq_iff.mp h
  cases builtin with
  | properties =>
    have halike := alike_of_beq hmembers (hnames trivial)
    constructor
    case accepts =>
      change (!a.members.isEmpty) = !b.members.isEmpty
      rw [isEmpty_eq_of_alike halike]
    case write =>
      intro w
      rw [Builtin.write_eq, Builtin.write_eq, piece, piece, Outcome.mapM_eq_of_forall₂
        (halike.imp fun _ _ hm => hm.text_eq w.indent w.level)]
    all_goals rfl
  | equatable =>
    have halike := alike_of_beq hmembers (hnames trivial)
    rcases equatableTarget?_of_beq htarget with ⟨ha, hb⟩ | ⟨d, d', ha, hb, hname, hvalue⟩
    · constructor
      case write =>
        intro w
        rw [Builtin.write_eq, Builtin.write_eq, piece, piece, ha, hb]
      case accepts => simp only [Builtin.emitter, Emitter.equatable, ha, hb]
      case interfaces => simp only [Builtin.emitter, Emitter.equatable, ha, hb]
      all_goals rfl
    · constructor
      case write =>
        intro w
        have hoptions : (⟨a, o, siblings⟩ : Context).options =
            (⟨b, o, siblings⟩ : Context).options := rfl
        rw [Builtin.write_eq, Builtin.write_eq, piece, piece, ha, hb]
        simp only [equatablePiece_eq hoptions halike hname hvalue]
      case accepts => simp only [Builtin.emitter, Emitter.equatable, ha, hb, Option.isSome_some]
      case interfaces => simp only [Builtin.emitter, Emitter.equatable, ha, hb, hname]
      all_goals rfl
  | snippet s => constructor <;> intros <;> rfl

/-! ### Files -/

/-- **Equal specifications have the same file**, where the names agree that are
written for the references in them: the simple name of the target, which the
file is called by, and the source names of the members' types, if any emitter
writes them. If there is no file, the failure is the same. -/
theorem FileEmitter.generate_eq_of_beq {f : FileEmitter} {a b : TypeSpec}
    (hfile : f.fileName = none) (h : (a == b) = true) (htarget : a.targetName = b.targetName)
    (hslots : ∀ slot ∈ f.slots, ∃ builtin : Builtin, slot.emitter = builtin.emitter ∧
      (builtin.WritesMembers →
        a.members.map (·.type.sourceName) = b.members.map (·.type.sourceName)))
    (siblings : Siblings) : f.generate a siblings = f.generate b siblings := by
  obtain ⟨hns, hdeclarations, -, hattributes, -, -⟩ := TypeSpec.beq_iff.mp h
  have hname : f.nameOf a = f.nameOf b := by
    rw [nameOf, nameOf, hfile, htarget]
  refine generate_congr hns hdeclarations hattributes htarget hname fun slot hslot o => ?_
  obtain ⟨builtin, hemitter, hnames⟩ := hslots slot hslot
  rw [hemitter]
  exact builtin.agree h hnames o siblings

/-- **Equality alone is not enough.** A type referred to by its keyword is equal
to the one referred to by its name, and a reference may have any simple name. In
each of two pairs the specifications are equal and their files are not. -/
theorem generate_ne_of_beq :
    let int := TypeRef.ofName "System.Int32" .structType
    let order := TypeRef.ofName "Shop.Order" .classType
    let counted (type : TypeRef) : TypeSpec :=
      { ns := some "Shop", declarations := ["public partial class Order"], target := .ref order,
        members := [.property "Count" type order] }
    let called (target : TypeRef) : TypeSpec :=
      { ns := none, declarations := ["public class Order"], target := .ref target }
    let f : FileEmitter := {}
    ((counted (int.withSpecial .int32) == counted int) = true ∧
      (f.add Builtin.properties.emitter).generate (counted (int.withSpecial .int32)) .empty ≠
        (f.add Builtin.properties.emitter).generate (counted int) .empty) ∧
    ((called order == called (TypeDesc.ofName "Shop.Order").toRef) = true ∧
      f.generate (called order) .empty ≠
        f.generate (called (TypeDesc.ofName "Shop.Order").toRef) .empty) := by
  decide +kernel

/-- References that differ in what they say about the type, and in nothing that
is written: one file for both. -/
theorem FileEmitter.generate_eq_of_beq_kinds :
    let order := TypeRef.ofName "Shop.Order" .classType
    let a : TypeSpec :=
      { ns := some "Shop", declarations := ["public class Order"], target := .ref order,
        members := [.property "Size" (.ofName "Shop.Size" .structType) order] }
    let b : TypeSpec :=
      { ns := some "Shop", declarations := ["public class Order"],
        target := .ref (.ofName "Shop.Order" .structType),
        members := [.property "Size" (.ofName "Shop.Size" .enumType) order] }
    a.target.identity ≠ b.target.identity ∧
      (({} : FileEmitter).add Builtin.properties.emitter).generate a .empty =
        (({} : FileEmitter).add Builtin.properties.emitter).generate b .empty := by
  intro order a b
  refine ⟨by decide +kernel, FileEmitter.generate_eq_of_beq rfl (by decide +kernel)
    (by decide +kernel) ?_ .empty⟩
  intro slot hslot
  rw [List.mem_singleton.mp hslot]
  exact ⟨.properties, rfl, fun _ => by decide +kernel⟩

end SharpSource
