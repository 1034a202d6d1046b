import SharpSource.Proofs.AttributeBlocks

/-!
# Files of the global namespace

Some settings are about the inside of a namespace and nothing else: whether it
is declared for the file or is a block, and the usings that stand in it. A
target of the global namespace has no inside of this kind, and its file must not
tell what these settings are.

They reach far, all the same. The options of the file hold two of them, and so
do the options of every emitter, be they its own or those of the file; and
snippets bring inner usings along, among them blank ones, which a namespace
would fail on. So the claim is one about two file emitters that **agree outside
of a namespace** (`FileEmitter.AgreeOutside`), in their settings, in the options
of each slot and in each emitter. Their participants come in pairs that answer
alike to every question but the one for inner usings (`Builtin.agreeOutside`),
which is not asked; nothing that is written above the bodies looks at the rest
(`FileEmitter.writeHead_congr_outside`). What is generated is therefore the
same, be it a file or a failure (`FileEmitter.generate_eq_of_agreeOutside`).
-/

namespace SharpSource

open Outcome (Related)

/-! ### Agreement outside of a namespace -/

/-- The options without what is only for the inside of a namespace. -/
def FileOptions.outside (o : FileOptions) : FileOptions :=
  { o with fileScopedNamespace := false, innerUsings := [] }

/-- The settings without what is only for the inside of a namespace. -/
def Settings.outside (s : Settings) : Settings :=
  { s with file := s.file.outside }

/-- The emitter without what is only for the inside of a namespace: snippets
have inner usings. -/
def Builtin.outside : Builtin → Builtin
  | properties => properties
  | equatable => equatable
  | snippet s => snippet { s with innerUsings := [] }

/-- **Two slots agree outside of a namespace** when they hold built-in emitters
that do, with options that do, or both without options. -/
inductive Slot.AgreeOutside : Slot → Slot → Prop
  | intro {b b' : Builtin} {options options' : Option FileOptions} (hb : b.outside = b'.outside)
      (hoptions : options.map FileOptions.outside = options'.map FileOptions.outside) :
      AgreeOutside ⟨b.emitter, options⟩ ⟨b'.emitter, options'⟩

/-- **Two file emitters agree outside of a namespace**: they differ at most in
the form of namespaces and in inner usings, wherever these are given. -/
structure FileEmitter.AgreeOutside (f f' : FileEmitter) : Prop where
  settings : f.settings.outside = f'.settings.outside
  slots : List.Forall₂ Slot.AgreeOutside f.slots f'.slots
  fileName : f.fileName = f'.fileName

/-- **Two participants agree outside of a namespace** when they answer alike to
every question but the one for inner usings, and put the same pieces. -/
structure Participant.AgreeOutside (p p' : Participant) : Prop where
  accepts : p.emitter.accepts p.context = p'.emitter.accepts p'.context
  outerUsings : p.emitter.outerUsings p.context = p'.emitter.outerUsings p'.context
  attributes : p.emitter.attributes p.context = p'.emitter.attributes p'.context
  interfaces : p.emitter.interfaces p.context = p'.emitter.interfaces p'.context
  write : ∃ piece : Nat → Indent → Except Failure String,
    (∀ w, p.emitter.write p.context w = (piece w.level w.indent).map w.put) ∧
    ∀ w, p'.emitter.write p'.context w = (piece w.level w.indent).map w.put

/-! ### Participants -/

/-- All that a built-in emitter asks of its options is outside of a
namespace. -/
theorem FileOptions.nullableAnnotations_outside {o o' : FileOptions} (h : o.outside = o'.outside) :
    o.nullableAnnotations = o'.nullableAnnotations :=
  congrArg (·.nullableAnnotations) h

theorem Builtin.piece_outside (b : Builtin) (c : Context) (level : Nat) (i : Indent) :
    b.outside.piece c level i = b.piece c level i := by
  cases b <;> rfl

/-- **Built-in emitters that agree outside of a namespace** take part alike,
under options that do. -/
theorem Builtin.agreeOutside {b b' : Builtin} (hb : b.outside = b'.outside) {o o' : FileOptions}
    (ho : o.outside = o'.outside) (spec : TypeSpec) (siblings : Siblings) :
    Participant.AgreeOutside ⟨b.emitter, ⟨spec, o, siblings⟩⟩
      ⟨b'.emitter, ⟨spec, o', siblings⟩⟩ := by
  have hmark := FileOptions.nullableAnnotations_outside ho
  have hagree := b'.agree_options hmark spec siblings
  -- An answer that does not depend on inner usings is that of both emitters.
  have hanswer {α : Type} (part : Emitter → Context → α)
      (h : ∀ b : Builtin, part b.outside.emitter ⟨spec, o, siblings⟩ =
        part b.emitter ⟨spec, o, siblings⟩) :
      part b.emitter ⟨spec, o, siblings⟩ = part b'.emitter ⟨spec, o, siblings⟩ := by
    rw [← h b, hb, h b']
  constructor
  case accepts =>
    exact (hanswer Emitter.accepts fun b => by cases b <;> rfl).trans hagree.accepts
  case outerUsings =>
    exact (hanswer Emitter.outerUsings fun b => by cases b <;> rfl).trans hagree.outerUsings
  case attributes =>
    exact (hanswer Emitter.attributes fun b => by cases b <;> rfl).trans hagree.attributes
  case interfaces =>
    exact (hanswer Emitter.interfaces fun b => by cases b <;> rfl).trans hagree.interfaces
  case write =>
    refine ⟨b.piece ⟨spec, o, siblings⟩, fun w => b.write_eq _ w, fun w => ?_⟩
    rw [b'.write_eq, ← b'.piece_options hmark, ← b'.piece_outside, ← hb, b.piece_outside]

namespace FileEmitter

variable {f f' : FileEmitter} {spec : TypeSpec} {siblings : Siblings} {ps ps' : List Participant}

/-- A slot and one that agrees with it fail for want of options, or their
participants agree. -/
theorem AgreeOutside.related_participant (h : f.AgreeOutside f') {slot slot' : Slot}
    (hslot : slot.AgreeOutside slot') :
    Related Participant.AgreeOutside (f.participant spec siblings slot)
      (f'.participant spec siblings slot') := by
  have hfile : f.settings.file.outside = f'.settings.file.outside :=
    congrArg Settings.file h.settings
  have hshare : f.settings.file.shareOptions = f'.settings.file.shareOptions :=
    congrArg (·.shareOptions) hfile
  obtain ⟨hb, hoptions⟩ := hslot
  rename_i b b' options options'
  have hname : b.emitter.name = b'.emitter.name := by
    have hkeeps : ∀ b : Builtin, b.outside.emitter.name = b.emitter.name := fun b => by
      cases b <;> rfl
    rw [← hkeeps b, hb, hkeeps b']
  rw [participant, participant, hshare]
  cases options with
  | some o =>
    obtain ⟨o', rfl, ho⟩ := Option.map_eq_some_iff.mp hoptions.symm
    exact .ok (Builtin.agreeOutside hb ho.symm spec siblings)
  | none =>
    obtain rfl : options' = none := Option.map_eq_none_iff.mp hoptions.symm
    cases f'.settings.file.shareOptions with
    | true => exact .ok (Builtin.agreeOutside hb hfile spec siblings)
    | false =>
      rw [hname]
      exact .error _

/-- **The participants come in pairs** that agree, or there are none for the
same reason. -/
theorem AgreeOutside.related_participants (h : f.AgreeOutside f') :
    Related (List.Forall₂ Participant.AgreeOutside) (f.participants spec siblings)
      (f'.participants spec siblings) := by
  rw [participants, participants]
  refine (Related.mapM h.slots fun _ _ => h.related_participant).bind fun all all' hall => .ok ?_
  exact List.rel_filter (fun {p p'} hp => Bool.eq_iff_iff.mp hp.accepts) hall

/-! ### The file -/

/-- Outside of a namespace the text above the bodies is written under settings
that agree with it. -/
theorem writeHead_outside (f : FileEmitter) (hns : spec.ns = none) (ps : List Participant)
    (outer inner : List String) (target : String) (containing : List String) :
    ({ f with settings := f.settings.outside } : FileEmitter).writeHead spec ps outer inner target
      containing = f.writeHead spec ps outer inner target containing := by
  rw [writeHead, writeHead, hns]
  rfl

/-- **The text above the bodies** is the same. -/
theorem writeHead_congr_outside (h : f.AgreeOutside f') (hns : spec.ns = none)
    (hps : List.Forall₂ Participant.AgreeOutside ps ps') (outer inner : List String)
    (target : String) (containing : List String) :
    f.writeHead spec ps outer inner target containing =
      f'.writeHead spec ps' outer inner target containing := by
  have hattributes := contributions_eq hps Emitter.attributes fun _ _ hp => hp.attributes
  have hinterfaces := contributions_eq hps Emitter.interfaces fun _ _ hp => hp.interfaces
  rw [← f.writeHead_outside hns, ← f'.writeHead_outside hns]
  simp only [writeHead, writeTarget, attributesOf, interfacesOf, h.settings, hattributes,
    hinterfaces]

/-- **Outside of a namespace nothing is told about its inside.** Two file
emitters over built-in emitters that differ at most in the form of namespaces
and in inner usings, in the settings, in the options of any emitter or in any
snippet, generate the same for a target of the global namespace: the same file
under the same name, or the same failure. Blank inner usings, which a namespace
is refused for, are no exception. -/
theorem generate_eq_of_agreeOutside (h : f.AgreeOutside f') (hns : spec.ns = none)
    (siblings : Siblings) : f.generate spec siblings = f'.generate spec siblings := by
  have hfile : f.settings.file.outside = f'.settings.file.outside :=
    congrArg Settings.file h.settings
  have hparts : Related (List.Forall₂ Participant.AgreeOutside) (f.participants spec siblings)
      (f'.participants spec siblings) := h.related_participants
  have hrelated := related_generate_of (B := Eq) rfl rfl hparts (fun ps ps' hps => ?_)
    (fun ps ps' hps => ?_) (fun ps ps' outer inner target containing hps => ?_)
  · rcases hrelated.cases_eq with ⟨e, he, he'⟩ | ⟨file, file', hok, hok', target, containing, ps,
      ps', outer, inner, bodies, _, -, -, hps, -, -, rfl, rfl, rfl⟩
    · rw [he, he']
    · have hname : f.nameOf spec = f'.nameOf spec := by
        have hsuffix : f.settings.suffix = f'.settings.suffix := congrArg (·.suffix) h.settings
        rw [nameOf, nameOf, h.fileName, hsuffix]
      rw [hok, hok', hname, writeHead_congr_outside h hns hps]
  · have houter : f.settings.file.outerUsings = f'.settings.file.outerUsings :=
      congrArg (·.outerUsings) hfile
    rw [houter, contributions_eq hps Emitter.outerUsings fun _ _ hp => hp.outerUsings]
  · -- Without a namespace the inner usings are not even collected.
    rw [innerUsings, innerUsings, hns]
  · have hspacing : f'.settings.file.emitterSpacing = f.settings.file.emitterSpacing :=
      congrArg (·.emitterSpacing) hfile.symm
    rw [← writeHead_congr_outside h hns hps outer inner target containing]
    exact related_writeBody_of hps (fun _ _ hp => hp.write) hspacing rfl rfl

/-- Two file emitters that agree outside of a namespace, one of them with blank
usings in the options of the file, in those of an emitter and in a snippet. For
a target of the global namespace there is one file; in a namespace only the
other one succeeds. -/
theorem generate_eq_of_agreeOutside_blank :
    let raw (innerUsings : List String) : Builtin :=
      .snippet { name := "raw", text := "int a;", innerUsings }
    let emitter (fileScopedNamespace : Bool) (usings : List String) : FileEmitter :=
      { settings := { file := { fileScopedNamespace, innerUsings := usings } }
        slots := [⟨Builtin.equatable.emitter, some { innerUsings := usings }⟩,
          ⟨(raw usings).emitter, none⟩] }
    let spec (ns : Option String) : TypeSpec :=
      { ns, declarations := ["class Order"], target := .desc (.ofName "Order") }
    (emitter true [" ", "System"]).AgreeOutside (emitter false []) ∧
      (∃ file, (emitter true [" ", "System"]).generate (spec none) .empty = .ok file ∧
        (emitter false []).generate (spec none) .empty = .ok file) ∧
      (emitter true [" ", "System"]).generate (spec (some "Shop")) .empty = .error .blankUsing ∧
      ∃ file, (emitter false []).generate (spec (some "Shop")) .empty = .ok file := by
  intro raw emitter spec
  have hslots : List.Forall₂ Slot.AgreeOutside (emitter true [" ", "System"]).slots
      (emitter false []).slots := by
    have hequatable : Builtin.equatable.outside = Builtin.equatable.outside := rfl
    have hraw : (raw [" ", "System"]).outside = (raw []).outside := rfl
    exact .cons (.intro hequatable rfl) (.cons (.intro hraw rfl) .nil)
  have hagree : (emitter true [" ", "System"]).AgreeOutside (emitter false []) :=
    ⟨rfl, hslots, rfl⟩
  have hglobal : (spec none).ns = none := rfl
  have hsame := generate_eq_of_agreeOutside hagree hglobal .empty
  have hok : ∀ ns ∈ [none, some "Shop"],
      ((emitter false []).generate (spec ns) .empty).toOption.isSome := by
    decide +kernel
  have hfile : ∀ ns ∈ [none, some "Shop"],
      ∃ file, (emitter false []).generate (spec ns) .empty = .ok file := fun ns hns => by
    cases hgenerate : (emitter false []).generate (spec ns) .empty with
    | ok file => exact ⟨file, rfl⟩
    | error e => simpa [hgenerate, Except.toOption] using hok ns hns
  have hblank : (emitter true [" ", "System"]).generate (spec (some "Shop")) .empty =
      .error .blankUsing := rfl
  obtain ⟨file, hnone⟩ := hfile none (by simp)
  exact ⟨hagree, ⟨file, hsame.trans hnone, hnone⟩, hblank, hfile (some "Shop") (by simp)⟩

end FileEmitter

end SharpSource
