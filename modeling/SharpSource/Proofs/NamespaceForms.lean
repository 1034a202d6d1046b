import SharpSource.Proofs.Levels
import SharpSource.Proofs.Returns

/-!
# The two forms of a namespace

A namespace is declared for a whole file, or it is a block around everything
below it. The two forms are two runs of the same code, one of them a level
deeper from the namespace on, and the files say the same: below the namespace
the lines of the second are those of the first with one more unit of
indentation in front, and the block has a brace at its end
(`FileEmitter.generate_in_both_forms`).

Down to the namespace the files agree. From there on each section of a file is
compared with itself one level deeper: the inner usings
(`FileEmitter.indented_usingsText`), the declarations and the braces around the
target, and the bodies. At level zero, where a line is written as it stands, a
carriage return in it would make a difference. So the texts that a file has at
that level must not hold any; they are its `frameTexts`.
-/

namespace SharpSource

open Layout
open Bodies (emptyLines)
open Outcome (Related)
open Text (NoReturn)

/-! ### Files in both forms -/

/-- The settings with a namespace that is declared for the file, or with one
that is a block. -/
def Settings.withForm (s : Settings) (fileScoped : Bool) : Settings :=
  { s with file := { s.file with fileScopedNamespace := fileScoped } }

/-- The texts of options that a file has around its bodies. -/
def FileOptions.frameTexts (o : FileOptions) : List String :=
  o.innerUsings ++ o.attributes ++ o.interfaces ++ o.baseType.toList ++
    o.assembly.toList.flatMap fun a => [a.name, a.version]

/-- The texts of a specification that a file has around its bodies. -/
def TypeSpec.frameTexts (s : TypeSpec) : List String :=
  s.declarations ++ s.attributes ++ (s.target.desc?.map TypeDesc.genericName).toList

/-- The texts of a built-in emitter that a file has around its bodies. -/
def Builtin.frameTexts : Builtin → List String
  | properties => []
  | equatable => []
  | snippet s => s.innerUsings ++ s.attributes ++ s.interfaces

/-- **What a built-in emitter contributes** around the bodies has no carriage
returns when the texts have none that it is made from. -/
theorem Builtin.noReturn_contributions {b : Builtin} {spec : TypeSpec}
    (hspec : ∀ s ∈ spec.frameTexts, NoReturn s) (hb : ∀ s ∈ b.frameTexts, NoReturn s)
    (o : FileOptions) (siblings : Siblings) :
    ∀ s ∈ b.emitter.innerUsings ⟨spec, o, siblings⟩ ++ b.emitter.attributes ⟨spec, o, siblings⟩ ++
      b.emitter.interfaces ⟨spec, o, siblings⟩, NoReturn s := by
  intro s hs
  cases b with
  | properties => exact absurd hs List.not_mem_nil
  | equatable =>
    replace hs : s ∈ Emitter.equatable.interfaces ⟨spec, o, siblings⟩ := hs
    cases htarget : Emitter.equatableTarget? spec with
    | none =>
      simp only [Emitter.equatable, htarget] at hs
      cases hs
    | some d =>
      simp only [Emitter.equatable, htarget, List.mem_singleton] at hs
      have hname : NoReturn d.genericName := by
        refine hspec _ (List.mem_append_right _ ?_)
        rw [(Option.filter_eq_some_iff.mp htarget).1]
        exact List.mem_singleton_self _
      have hopen : NoReturn "global::System.IEquatable<" := by decide +kernel
      exact hs ▸ (hopen.append hname).append (by decide)
  | snippet s => exact hb _ hs

namespace FileEmitter

/-- **A file emitter of built-in emitters**, which were registered one after the
other, each for the options of the file or with options of its own. -/
def ofBuiltins (settings : Settings) (fileName : Option (TypeSpec → String))
    (bs : List (Builtin × Option FileOptions)) : FileEmitter :=
  bs.foldl (fun f b =>
    match b.2 with
    | some options => f.addWith b.1.emitter options
    | none => f.add b.1.emitter) { settings, fileName }

/-- The slot of an emitter under some settings. -/
def slotOf (settings : Settings) (b : Builtin × Option FileOptions) : Slot :=
  ⟨b.1.emitter, b.2.or (if settings.file.shareOptions then some settings.file else none)⟩

theorem ofBuiltins_eq (settings : Settings) (fileName : Option (TypeSpec → String))
    (bs : List (Builtin × Option FileOptions)) :
    ofBuiltins settings fileName bs =
      { settings, fileName, slots := bs.map (slotOf settings) } := by
  have hadd : ∀ slots : List Slot, bs.foldl (fun f b =>
      match b.2 with
      | some options => f.addWith b.1.emitter options
      | none => f.add b.1.emitter) ({ settings, fileName, slots } : FileEmitter) =
        { settings, fileName, slots := slots ++ bs.map (slotOf settings) } := by
    induction bs with
    | nil => simp
    | cons b bs ih =>
      intro slots
      rw [List.foldl_cons]
      rcases b with ⟨b, options⟩
      cases options with
      | none =>
        refine (ih _).trans ?_
        rw [List.map_cons, List.append_assoc]
        rfl
      | some options =>
        refine (ih _).trans ?_
        rw [List.map_cons, List.append_assoc]
        rfl
  exact hadd []

variable {settings : Settings} {fileName : Option (TypeSpec → String)}
  {bs : List (Builtin × Option FileOptions)} {spec : TypeSpec} {siblings : Siblings}
  {ps ps' : List Participant}

/-! ### Who takes part -/

/-- **Two runs have participants in pairs** when their emitters come in pairs
that are given options alike. The emitters take part in both or in none, or one
is left without options in both. -/
theorem related_participants_of {settings settings' : Settings} {spec spec' : TypeSpec}
    {bs bs' : List (Builtin × Option FileOptions)} {R : Participant → Participant → Prop}
    (hshare : settings'.file.shareOptions = settings.file.shareOptions)
    (hmark : settings.file.nullableAnnotations = settings'.file.nullableAnnotations)
    (hbs : List.Forall₂ (fun b b' => b'.2 = b.2 ∧ b'.1.emitter.name = b.1.emitter.name ∧
      ∀ o o' : FileOptions, o.nullableAnnotations = o'.nullableAnnotations →
        R ⟨b.1.emitter, ⟨spec, o, siblings⟩⟩ ⟨b'.1.emitter, ⟨spec', o', siblings⟩⟩) bs bs')
    (haccepts : ∀ p p', R p p' → p.emitter.accepts p.context = p'.emitter.accepts p'.context) :
    Related (List.Forall₂ R) ((ofBuiltins settings fileName bs).participants spec siblings)
      ((ofBuiltins settings' fileName bs').participants spec' siblings) := by
  rw [participants, participants, ofBuiltins_eq, ofBuiltins_eq]
  refine Related.bind (R := List.Forall₂ R) ?_ fun all all' htaking => .ok ?_
  · have hslots : List.Forall₂ (fun slot slot' => Related R
        (participant { settings, fileName, slots := bs.map (slotOf settings) } spec siblings slot)
        (participant { settings := settings', fileName, slots := bs'.map (slotOf settings') } spec'
          siblings slot')) (bs.map (slotOf settings)) (bs'.map (slotOf settings')) := by
      rw [List.forall₂_map_left_iff, List.forall₂_map_right_iff]
      refine hbs.imp ?_
      rintro ⟨b, options⟩ ⟨b', options'⟩ ⟨hoptions, hname, hR⟩
      obtain rfl : options' = options := hoptions
      replace hname : b'.emitter.name = b.emitter.name := hname
      rw [participant, participant, slotOf, slotOf]
      cases options' with
      | some options => exact .ok (hR _ _ rfl)
      | none =>
        cases hs : settings.file.shareOptions with
        | true =>
          simp only [hshare.trans hs, Option.none_or, if_true]
          exact .ok (hR _ _ hmark)
        | false =>
          simp only [hshare.trans hs, Option.none_or, hname]
          exact .error _
    exact Related.mapM hslots fun _ _ h => h
  · exact List.rel_filter (fun {p p'} hp => Bool.eq_iff_iff.mp (haccepts p p' hp)) htaking

/-- **The same emitters take part** in both forms. -/
theorem related_participants :
    Related (List.Forall₂ (Participant.Alike (bs.map (·.1)) spec siblings))
      ((ofBuiltins (settings.withForm true) fileName bs).participants spec siblings)
      ((ofBuiltins (settings.withForm false) fileName bs).participants spec siblings) := by
  refine related_participants_of rfl rfl (List.forall₂_same.mpr fun b hb => ⟨rfl, rfl, ?_⟩) ?_
  · exact fun o o' ho => .intro b.1 (List.mem_map_of_mem hb) ho
  · -- Whether an emitter declines depends on the target alone.
    rintro _ _ ⟨b, -, ho⟩
    exact (b.agree_options ho spec siblings).accepts

/-! ### Above the declarations -/

/-- A block of using directives at a level. -/
def usingsText (o : FileOptions) (i : Indent) (directives : List String) (level : Nat) : String :=
  if directives.isEmpty then ""
  else Writer.lineText i level ("\n".intercalate directives) ++ emptyLines o.sectionSpacing

theorem writeUsings_eq (o : FileOptions) (directives : List String) (w : Writer) :
    writeUsings o directives w = w.put (usingsText o w.indent directives w.level) := by
  rw [writeUsings, usingsText]
  by_cases h : directives.isEmpty = true
  · rw [if_pos h, if_pos h]
    simp [Writer.put]
  · rw [if_neg h, if_neg h]
    simp only [Writer.put, Writer.line, Writer.blankLines, emptyLines, String.append_assoc]

theorem indented_usingsText {i : Indent} (hi : i.char ≠ '\n') (o : FileOptions)
    {directives : List String} (h : ∀ d ∈ directives, NoReturn d) (level : Nat) :
    Indented i.unit (usingsText o i directives level) (usingsText o i directives (level + 1)) := by
  rw [usingsText, usingsText]
  split
  · exact .empty
  · have hdirectives : NoReturn ("\n".intercalate directives) := .intercalate (by decide) h
    exact (indented_lineText hi fun _ => hdirectives).append (.emptyLines _)

/-- What a file has above its namespace: the preamble and the outer usings. -/
def above (settings : Settings) (outer : List String) : String :=
  (writeUsings settings.file outer (writePreamble settings.file { indent := settings.indent })).text

/-- **Above the declarations** the two forms differ in the line of
the namespace, and in the level of what comes below it. -/
theorem text_writeTop {f : FileEmitter} (ns : String) (outer inner : List String) :
    (f.writeTop (some ns) outer inner).text = above f.settings outer ++
      if f.settings.file.fileScopedNamespace then
        "namespace " ++ ns ++ ";\n" ++ emptyLines f.settings.file.sectionSpacing ++
          usingsText f.settings.file f.settings.indent inner 0
      else
        "namespace " ++ ns ++ "\n\x7b\n" ++
          usingsText f.settings.file f.settings.indent inner 1 := by
  obtain ⟨s, hs⟩ := (moreText_writePreamble f.settings.file { indent := f.settings.indent }).trans
    (moreText_writeUsings f.settings.file _ outer)
  rw [writeTop, writeScope, above, hs, writeUsings_eq, writeNamespace]
  split
  · have hline : ";" ++ "\n" = ";\n" := rfl
    simp only [Writer.put, Writer.line, Writer.blankLines, Writer.lineText, if_true, emptyLines,
      String.append_assoc, ← hline]
  · have hopen : "\n" ++ openLine f.settings.indent 0 = "\n\x7b\n" := rfl
    simp only [Writer.put, Writer.line, Writer.openBlock_eq, Writer.lineText, if_true,
      String.append_assoc, ← hopen]

/-! ### Below the namespace -/

/-- What is below the namespace, at some level: the inner usings and the
declarations. -/
def belowNamespace (f : FileEmitter) (spec : TypeSpec) (ps : List Participant)
    (inner : List String) (target : String) (containing : List String) (bodies : String)
    (level : Nat) : String :=
  usingsText f.settings.file f.settings.indent inner level ++
    nested f.settings.indent (f.targetBlock spec ps target bodies) level containing.reverse

section Contents

variable {f : FileEmitter} {ns : String} (hns : spec.ns = some ns) (ps : List Participant)
  (outer inner : List String) (target : String) (containing : List String) (bodies : String)
include hns

theorem text_closeAll_fileScoped (hform : f.settings.file.fileScopedNamespace = true) :
    ((f.writeHead spec ps outer inner target containing).put bodies).closeAll.text =
      above f.settings outer ++ ("namespace " ++ ns ++ ";\n" ++
        emptyLines f.settings.file.sectionSpacing ++
        f.belowNamespace spec ps inner target containing bodies 0) := by
  rw [text_closeAll, hns, text_writeTop, baseLevel, if_pos hform, if_pos hform, belowNamespace,
    closeLines, String.append_empty]
  simp only [String.append_assoc]

theorem text_closeAll_block (hform : ¬ f.settings.file.fileScopedNamespace = true) :
    ((f.writeHead spec ps outer inner target containing).put bodies).closeAll.text =
      above f.settings outer ++ ("namespace " ++ ns ++ "\n\x7b\n" ++
        f.belowNamespace spec ps inner target containing bodies 1 ++ "\x7d") := by
  have hclose : closeLines f.settings.indent 1 = "\x7d" := rfl
  rw [text_closeAll, hns, text_writeTop, baseLevel, if_neg hform, if_neg hform, belowNamespace,
    hclose]
  simp only [String.append_assoc]

end Contents

section InStep

variable {f f' : FileEmitter} {bs : List Builtin} (hf : f.settings = settings.withForm true)
  (hf' : f'.settings = settings.withForm false) (hindent : settings.indent.char ≠ '\n')
  (hps : List.Forall₂ (Participant.Alike bs spec siblings) ps ps')

include hps in
theorem targetLines_alike (settings : Settings) (target : String) :
    targetLines (settings.withForm false).file spec ps' target =
      targetLines (settings.withForm true).file spec ps target := by
  rw [targetLines, targetLines, attributesOf, attributesOf, interfacesOf, interfacesOf,
    contributions_alike hps Emitter.Agree.attributes,
    contributions_alike hps Emitter.Agree.interfaces]
  rfl

include hf hf' hindent hps

/-- **Below the namespace** everything is one level deeper in a block. -/
theorem indented_belowNamespace {inner : List String} {target : String} {containing : List String}
    {bodies bodies' : String} (hinner : ∀ d ∈ inner, NoReturn d)
    (hcontaining : ∀ d ∈ containing, NoReturn d)
    (htarget : ∀ l ∈ targetLines (settings.withForm true).file spec ps target, NoReturn l)
    (hbodies : Indented settings.indent.unit bodies bodies') :
    Indented settings.indent.unit
      (f.belowNamespace spec ps inner target containing bodies 0 ++ "\n")
      (f'.belowNamespace spec ps' inner target containing bodies' 1) := by
  have hi : f.settings.indent = settings.indent := by
    rw [hf]
    rfl
  have hi' : f'.settings.indent = settings.indent := by
    rw [hf']
    rfl
  have husings : Indented settings.indent.unit
      (usingsText f.settings.file settings.indent inner 0)
      (usingsText f'.settings.file settings.indent inner 1) := by
    rw [hf, hf']
    exact indented_usingsText hindent _ hinner 0
  have hblock : ∀ level, Indented settings.indent.unit
      (f.targetBlock spec ps target bodies level ++ trail level)
      (f'.targetBlock spec ps' target bodies' (level + 1)) := by
    intro level
    rw [targetBlock, targetBlock, hf, hf', targetLines_alike hps]
    exact indented_block hindent level (indented_linesText hindent fun _ => htarget) hbodies
  have hnested : Indented settings.indent.unit
      (nested settings.indent (f.targetBlock spec ps target bodies) 0 containing.reverse ++ trail 0)
      (nested settings.indent (f'.targetBlock spec ps' target bodies') 1 containing.reverse) := by
    refine indented_nested hindent (fun _ d hd => hcontaining d (List.mem_reverse.mp hd)) ?_
    rw [Nat.add_right_comm]
    exact hblock _
  rw [belowNamespace, belowNamespace, hi, hi', String.append_assoc]
  exact husings.append hnested

/-- **The bodies** end with the same failure, or are one level deeper in a
block. -/
theorem related_writeBody {ns : String} (hns : spec.ns = some ns) (outer inner : List String)
    (target : String) (containing : List String) :
    Related (fun v v' => ∃ bodies bodies', Indented settings.indent.unit bodies bodies' ∧
        v = (f.writeHead spec ps outer inner target containing).put bodies ∧
        v' = (f'.writeHead spec ps' outer inner target containing).put bodies')
      (f.writeBody ps (f.writeHead spec ps outer inner target containing))
      (f'.writeBody ps' (f'.writeHead spec ps' outer inner target containing)) := by
  have hspacing : f'.settings.file.emitterSpacing = f.settings.file.emitterSpacing := by
    rw [hf, hf']
    rfl
  rw [writeBody_eq_after, writeBody_eq_after, hspacing]
  refine Bodies.related_after hindent _ containing.length hps ?_ ?_ .nil
  · rw [writeHead_eq, hf, hns]
    exact ⟨congrArg (· + 1) (Nat.zero_add _), rfl⟩
  · rw [writeHead_eq, hf', hns]
    exact ⟨congrArg (· + 1) (Nat.add_comm 1 _), rfl⟩

end InStep

/-! ### Texts without carriage returns -/

/-- What the participants contribute around the bodies. -/
theorem noReturn_contributions {bs : List Builtin}
    (h : List.Forall₂ (Participant.Alike bs spec siblings) ps ps')
    (hspec : ∀ s ∈ spec.frameTexts, NoReturn s)
    (hbs : ∀ b ∈ bs, ∀ s ∈ b.frameTexts, NoReturn s) :
    (∀ s ∈ contributions Emitter.innerUsings ps, NoReturn s) ∧
      (∀ s ∈ contributions Emitter.attributes ps, NoReturn s) ∧
      ∀ s ∈ contributions Emitter.interfaces ps, NoReturn s := by
  have hpart : ∀ part : Emitter → Context → List String,
      (∀ e c, part e c ⊆ e.innerUsings c ++ e.attributes c ++ e.interfaces c) →
        ∀ s ∈ contributions part ps, NoReturn s := by
    intro part hsub s hs
    obtain ⟨b, hb, o, hmem⟩ := exists_of_mem_contributions h hs
    exact Builtin.noReturn_contributions hspec (hbs b hb) o siblings s (hsub _ _ hmem)
  refine ⟨hpart _ fun e c s hs => ?_, hpart _ fun e c s hs => ?_, hpart _ fun e c s hs => ?_⟩
  · exact List.mem_append_left _ (List.mem_append_left _ hs)
  · exact List.mem_append_left _ (List.mem_append_right _ hs)
  · exact List.mem_append_right _ hs

/-- The lines of the target, from texts without carriage returns. -/
theorem noReturn_targetLines_of_frameTexts {o : FileOptions} {target : String}
    (hfile : ∀ s ∈ o.frameTexts, NoReturn s) (hspec : ∀ s ∈ spec.frameTexts, NoReturn s)
    (htarget : target ∈ spec.declarations)
    (hattributes : ∀ s ∈ contributions Emitter.attributes ps, NoReturn s)
    (hinterfaces : ∀ s ∈ contributions Emitter.interfaces ps, NoReturn s) :
    ∀ l ∈ targetLines o spec ps target, NoReturn l := by
  simp only [FileOptions.frameTexts, List.forall_mem_append] at hfile
  simp only [TypeSpec.frameTexts, List.forall_mem_append] at hspec
  obtain ⟨⟨⟨⟨-, hattr⟩, hinter⟩, hbase⟩, hassembly⟩ := hfile
  refine noReturn_targetLines (hspec.1.1 target htarget) ?_ ?_ ?_ ?_
  · rw [List.forall_mem_append, List.forall_mem_append]
    exact ⟨⟨hattr, hspec.1.2⟩, hattributes⟩
  · intro a ha
    have htexts := fun s hs => hassembly s
      (List.mem_flatMap.mpr ⟨a, Option.mem_toList.mpr ha, hs⟩)
    exact ⟨htexts a.name (by simp), htexts a.version (by simp)⟩
  · exact fun b hb => hbase b (Option.mem_toList.mpr hb)
  · rw [List.forall_mem_append]
    exact ⟨hinter, hinterfaces⟩

/-! ### Whole files -/

/-- **Two files in step**: generation runs through the same stages in both
forms, and each of them fails in both or in none. -/
theorem related_generate {f f' : FileEmitter} {bs : List Builtin}
    (hf : f.settings = settings.withForm true) (hf' : f'.settings = settings.withForm false)
    (hname : f'.fileName = f.fileName) (hindent : settings.indent.char ≠ '\n') {ns : String}
    (hns : spec.ns = some ns)
    (hparts : Related (List.Forall₂ (Participant.Alike bs spec siblings))
      (f.participants spec siblings) (f'.participants spec siblings))
    (hfile : ∀ s ∈ settings.file.frameTexts, NoReturn s)
    (hspec : ∀ s ∈ spec.frameTexts, NoReturn s)
    (hbs : ∀ b ∈ bs, ∀ s ∈ b.frameTexts, NoReturn s) :
    Related (fun fileScoped block => ∃ name ps outer F B,
        f.participants spec siblings = .ok ps ∧
        Using.block (settings.file.outerUsings ++ contributions Emitter.outerUsings ps) =
          .ok outer ∧
        fileScoped = ⟨name, above settings outer ++
          ("namespace " ++ ns ++ ";\n" ++ emptyLines settings.file.sectionSpacing ++ F)⟩ ∧
        block = ⟨name, above settings outer ++
          ("namespace " ++ ns ++ "\n\x7b\n" ++ B ++ "\x7d")⟩ ∧
        Indented settings.indent.unit (F ++ "\n") B)
      (f.generate spec siblings) (f'.generate spec siblings) := by
  refine (related_generate_of (R := Participant.Alike bs spec siblings)
    (B := Indented settings.indent.unit) rfl rfl hparts (fun ps ps' hps => ?_)
    (fun ps ps' hps => ?_) (fun ps ps' outer inner target containing hps =>
      related_writeBody hf hf' hindent hps hns outer inner target containing)).imp ?_
  · rw [hf, hf', contributions_alike hps Emitter.Agree.outerUsings]
    rfl
  · rw [innerUsings, innerUsings, hf, hf', contributions_alike hps Emitter.Agree.innerUsings]
    rfl
  rintro _ _ ⟨target, containing, ps, ps', outer, inner, bodies, bodies', hdecl, htaking, hps,
    houter, hinner, hbodies, rfl, rfl⟩
  rw [hf] at houter
  obtain ⟨hinnerUsings, hattributes, hinterfaces⟩ := noReturn_contributions hps hspec hbs
  have htarget : target ∈ spec.declarations := hdecl ▸ List.mem_cons_self ..
  have hcontaining : ∀ d ∈ containing, NoReturn d := fun d hd =>
    hspec d (List.mem_append_left _ (List.mem_append_left _
      (hdecl ▸ List.mem_cons_of_mem _ hd)))
  have hdirectives : ∀ d ∈ inner, NoReturn d := by
    rw [innerUsings, hns, hf] at hinner
    refine Using.noReturn_block (fun s hs => ?_) hinner
    rcases List.mem_append.mp hs with hs | hs
    · refine hfile s ?_
      simp only [FileOptions.frameTexts, List.mem_append]
      exact Or.inl (Or.inl (Or.inl (Or.inl hs)))
    · exact hinnerUsings s hs
  have hlines := noReturn_targetLines_of_frameTexts hfile hspec htarget hattributes hinterfaces
  have hbelow := indented_belowNamespace hf hf' hindent hps hdirectives hcontaining hlines hbodies
  have hnameOf : f'.nameOf spec = f.nameOf spec := by
    rw [nameOf, nameOf, hname, hf, hf']
    rfl
  refine ⟨f.nameOf spec, ps, outer, _, _, htaking, houter, ?_, ?_, hbelow⟩
  · rw [text_closeAll_fileScoped hns ps outer inner target containing bodies
      (by rw [hf]; rfl), hf]
    rfl
  · rw [hnameOf, text_closeAll_block hns ps' outer inner target containing bodies'
      (by rw [hf']; exact Bool.false_ne_true), hf']
    rfl

/-- **The two forms say the same.** Both fail in the same way, or both are
written with the same preamble and outer usings above the namespace. Below it
the one form has some lines, and the other has these lines in the block, each
with one more unit of indentation or blank in both forms. -/
theorem generate_in_both_forms (settings : Settings) (fileName : Option (TypeSpec → String))
    (bs : List (Builtin × Option FileOptions)) (siblings : Siblings) {spec : TypeSpec} {ns : String}
    (hns : spec.ns = some ns) (hindent : settings.indent.char ≠ '\n')
    (hreturns : ∀ s ∈ settings.file.frameTexts ++ spec.frameTexts ++
      bs.flatMap (·.1.frameTexts), NoReturn s) :
    (∃ e, (ofBuiltins (settings.withForm true) fileName bs).generate spec siblings = .error e ∧
      (ofBuiltins (settings.withForm false) fileName bs).generate spec siblings = .error e) ∨
    ∃ name ps outer F B,
      (ofBuiltins (settings.withForm true) fileName bs).participants spec siblings = .ok ps ∧
      Using.block (settings.file.outerUsings ++ contributions Emitter.outerUsings ps) = .ok outer ∧
      (ofBuiltins (settings.withForm true) fileName bs).generate spec siblings = .ok ⟨name,
        above settings outer ++
          ("namespace " ++ ns ++ ";\n" ++ emptyLines settings.file.sectionSpacing ++ F)⟩ ∧
      (ofBuiltins (settings.withForm false) fileName bs).generate spec siblings = .ok ⟨name,
        above settings outer ++ ("namespace " ++ ns ++ "\n\x7b\n" ++ (B ++ "\n") ++ "\x7d")⟩ ∧
      List.Forall₂ (Deeper settings.indent.unit) (Text.split '\n' F) (Text.split '\n' B) := by
  rw [List.forall_mem_append, List.forall_mem_append] at hreturns
  obtain ⟨⟨hfile, hspec⟩, hemitters⟩ := hreturns
  have hbs : ∀ b ∈ bs.map (·.1), ∀ s ∈ b.frameTexts, NoReturn s := by
    intro b hb s hs
    obtain ⟨r, hr, rfl⟩ := List.mem_map.mp hb
    exact hemitters s (List.mem_flatMap.mpr ⟨r, hr, hs⟩)
  have hsettings : ∀ form, (ofBuiltins (settings.withForm form) fileName bs).settings =
      settings.withForm form := fun form => by rw [ofBuiltins_eq]
  have hname : ∀ form, (ofBuiltins (settings.withForm form) fileName bs).fileName = fileName :=
    fun form => by rw [ofBuiltins_eq]
  have hparts : Related (List.Forall₂ (Participant.Alike (bs.map (·.1)) spec siblings))
      ((ofBuiltins (settings.withForm true) fileName bs).participants spec siblings)
      ((ofBuiltins (settings.withForm false) fileName bs).participants spec siblings) :=
    related_participants
  have hrelated := related_generate (hsettings true) (hsettings false)
    ((hname false).trans (hname true).symm) hindent hns hparts hfile hspec hbs
  refine hrelated.cases_eq.imp_right ?_
  rintro ⟨fileScoped, block, hfileScoped, hblock, name, ps, outer, F, B, hps, houter, rfl, rfl,
    hshift⟩
  obtain ⟨B, rfl, hlines⟩ := hshift.split
  exact ⟨name, ps, outer, F, B, hps, houter, hfileScoped, hblock, hlines⟩

/-- A class in another, with a directive inside of the namespace, a member with
an attribute and two lines of a snippet, one of them empty. -/
theorem generate_in_both_forms_nested :
    let settings : Settings := { indent := .tab }
    let spec : TypeSpec :=
      { ns := some "Shop", declarations := ["/// <summary/>\n\npublic class Item", "class Order"],
        target := .ref (.ofName "Shop.Item" .classType)
        members := [{ name := "Count", type := .ofName "System.Int32" .structType,
                      declaring := .ofName "Shop.Item" .classType, attributes := ["Key"] }] }
    let bs : List (Builtin × Option FileOptions) := [(.properties, none),
      (.snippet { name := "raw", text := "int a;\n\nint b;", innerUsings := ["System"] },
        some { shareOptions := false })]
    ∃ name outer F B,
      (ofBuiltins (settings.withForm true) none bs).generate spec .empty = .ok ⟨name,
        above settings outer ++ ("namespace Shop;\n" ++ emptyLines 1 ++ F)⟩ ∧
      (ofBuiltins (settings.withForm false) none bs).generate spec .empty = .ok ⟨name,
        above settings outer ++ ("namespace Shop\n\x7b\n" ++ (B ++ "\n") ++ "\x7d")⟩ ∧
      List.Forall₂ (Deeper "\t") (Text.split '\n' F) (Text.split '\n' B) := by
  intro settings spec bs
  have hreturns : ∀ s ∈ settings.file.frameTexts ++ spec.frameTexts ++
      bs.flatMap (·.1.frameTexts), NoReturn s := by decide +kernel
  have hindent : settings.indent.char ≠ '\n' := by decide
  have hok : ((ofBuiltins (settings.withForm true) none bs).generate spec
      .empty).toOption.isSome := by decide +kernel
  rcases generate_in_both_forms settings none bs .empty rfl hindent hreturns with
    ⟨e, he, -⟩ | ⟨name, ps, outer, F, B, -, -, hscoped, hblock, hlines⟩
  · rw [he] at hok
    cases hok
  · exact ⟨name, outer, F, B, hscoped, hblock, hlines⟩

end FileEmitter

end SharpSource
