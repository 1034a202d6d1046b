import SharpSource.Proofs.LineEnds
import SharpSource.Proofs.RepeatedBases
import SharpSource.Proofs.UsingBlocks

/-!
# The attributes of a target

The attributes of a target come from three places: the options of the file, the
specification, and the emitters that take part. They are normalized and each is
kept at its first place, and then they are written on one line or on several,
directly above the mark of the assembly and the declaration.

A file depends on them through these lines alone. This is a matter of two runs:
one with the attributes as they are given, and one with other spellings of them,
and perhaps in the other mode. The participants of the two runs are twins
(`Participant.Twin`): they contribute the same but for the spelling of
attributes, and put the same pieces. So the stages of the two runs come to the
same results, and what is written differs in the lines of the attributes, which
depend on the mode (`FileEmitter.related_generate_respelled`). Where the mode is
the same, they do not differ at all.
-/

namespace SharpSource

open Layout
open Outcome (Related)

/-! ### Other spellings -/

/-- **Two spellings of attributes**: lists that stand for the same attributes in
the same order. -/
def Attribute.Respells (attributes attributes' : List String) : Prop :=
  attributes.flatMap normalize = attributes'.flatMap normalize

/-- The settings with other attributes, all of them on one line or one on
each. -/
def Settings.withAttributes (s : Settings) (attributes : List String) (combined : Bool) :
    Settings :=
  { s with file := { s.file with attributes, combineAttributes := combined } }

/-- The settings with attributes on one line, or with one on each. -/
def Settings.inMode (s : Settings) (combined : Bool) : Settings :=
  s.withAttributes s.file.attributes combined

/-- The description without its attributes. -/
def TypeDesc.plain (d : TypeDesc) : TypeDesc :=
  { d with attributes := [] }

/-- **Two specifications that differ in the spelling of attributes**: in those
of their own, and in whatever attributes the descriptions of their targets
have. -/
structure TypeSpec.Respells (spec spec' : TypeSpec) : Prop where
  ns : spec.ns = spec'.ns
  declarations : spec.declarations = spec'.declarations
  members : spec.members = spec'.members
  attributes : Attribute.Respells spec.attributes spec'.attributes
  targetName : spec.targetName = spec'.targetName
  desc : spec.target.desc?.map TypeDesc.plain = spec'.target.desc?.map TypeDesc.plain

/-- **Two built-in emitters that differ in the spelling of attributes.** Only
snippets have any. -/
inductive Builtin.Respells : Builtin → Builtin → Prop
  | properties : Respells .properties .properties
  | equatable : Respells .equatable .equatable
  | snippet (s : Snippet) {attributes : List String}
      (h : Attribute.Respells s.attributes attributes) :
      Respells (.snippet s) (.snippet { s with attributes })

theorem TypeSpec.Respells.refl (spec : TypeSpec) : spec.Respells spec :=
  ⟨rfl, rfl, rfl, rfl, rfl, rfl⟩

theorem Builtin.Respells.refl : (b : Builtin) → b.Respells b
  | .properties => .properties
  | .equatable => .equatable
  | .snippet s => .snippet s rfl

theorem TypeDesc.genericName_plain (d : TypeDesc) : d.plain.genericName = d.genericName := by
  obtain ⟨f, bases, interfaces, generics, containing, remembered⟩ := d
  cases generics <;> simp only [plain, genericName]

theorem Emitter.equatablePiece_plain (c : Context) (d : TypeDesc) (level : Nat) (i : Indent) :
    equatablePiece c d level i = equatablePiece c d.plain level i := by
  have hequals : equalsLine c d.plain = equalsLine c d :=
    congrArg (fun n => "public bool Equals(" ++ n ++ (if d.isValue then "" else absentMark c) ++
      " other)") d.genericName_plain
  have hobject : objectEqualsLine c d.plain = objectEqualsLine c d :=
    congrArg (fun n => "public override bool Equals(object" ++ absentMark c ++ " obj) => obj is " ++
      n ++ " other && Equals(other);") d.genericName_plain
  have hbody : equalsBody i c d.plain = equalsBody i c d := rfl
  rw [equatablePiece, equatablePiece, hequals, hobject, hbody]

/-! ### Twins -/

/-- **Twins**: participants of two runs that contribute the same, but for the
spelling of attributes, and put the same pieces. -/
structure Participant.Twin (p p' : Participant) : Prop where
  accepts : p.emitter.accepts p.context = p'.emitter.accepts p'.context
  outerUsings : p.emitter.outerUsings p.context = p'.emitter.outerUsings p'.context
  innerUsings : p.emitter.innerUsings p.context = p'.emitter.innerUsings p'.context
  interfaces : p.emitter.interfaces p.context = p'.emitter.interfaces p'.context
  attributes : Attribute.Respells (p.emitter.attributes p.context)
    (p'.emitter.attributes p'.context)
  write : ∃ piece : Nat → Indent → Except Failure String,
    (∀ w, p.emitter.write p.context w = (piece w.level w.indent).map w.put) ∧
    ∀ w, p'.emitter.write p'.context w = (piece w.level w.indent).map w.put

section

variable {spec spec' : TypeSpec} (h : spec.Respells spec')
include h

/-- **Both specifications are of equatable targets**, or neither is. -/
theorem Emitter.equatableTarget?_respelled :
    (equatableTarget? spec = none ∧ equatableTarget? spec' = none) ∨
      ∃ d d', equatableTarget? spec = some d ∧ equatableTarget? spec' = some d' ∧
        d.plain = d'.plain := by
  have hplain : ∀ s : TypeSpec, (equatableTarget? s).map TypeDesc.plain =
      (s.target.desc?.map TypeDesc.plain).filter fun d =>
        !d.isRecord && !d.isStatic && (d.kind == .classType || d.kind == .structType) := by
    intro s
    rw [Option.filter_map]
    rfl
  have hsame : (equatableTarget? spec).map TypeDesc.plain =
      (equatableTarget? spec').map TypeDesc.plain := by
    rw [hplain, hplain, h.desc]
  cases hd : equatableTarget? spec with
  | none =>
    rw [hd, Option.map_none, eq_comm, Option.map_eq_none_iff] at hsame
    exact Or.inl ⟨rfl, hsame⟩
  | some d =>
    rw [hd, Option.map_some, eq_comm, Option.map_eq_some_iff] at hsame
    obtain ⟨d', hd', hsame⟩ := hsame
    exact Or.inr ⟨d, d', rfl, hd', hsame.symm⟩

theorem Emitter.equatablePiece_respelled (o : FileOptions) (siblings : Siblings) (d : TypeDesc)
    (level : Nat) (i : Indent) :
    equatablePiece ⟨spec, o, siblings⟩ d level i =
      equatablePiece ⟨spec', o, siblings⟩ d level i := by
  simp only [equatablePiece, equalsBody, hashBody, h.members]
  rfl

/-- **A built-in emitter and another spelling of it are twins**, under options
that mark absent values alike. -/
theorem Builtin.twin {b b' : Builtin} (hb : b.Respells b') {o o' : FileOptions}
    (ho : o.nullableAnnotations = o'.nullableAnnotations) (siblings : Siblings) :
    Participant.Twin ⟨b.emitter, ⟨spec, o, siblings⟩⟩ ⟨b'.emitter, ⟨spec', o', siblings⟩⟩ := by
  have hwrite (hpiece : ∀ level i, b.piece ⟨spec, o, siblings⟩ level i =
      b'.piece ⟨spec', o, siblings⟩ level i) :
      ∃ piece : Nat → Indent → Except Failure String,
        (∀ w, b.emitter.write ⟨spec, o, siblings⟩ w = (piece w.level w.indent).map w.put) ∧
        ∀ w, b'.emitter.write ⟨spec', o', siblings⟩ w = (piece w.level w.indent).map w.put := by
    refine ⟨_, fun w => b.write_eq _ w, fun w => ?_⟩
    rw [b'.write_eq, hpiece, b'.piece_options ho]
  cases hb with
  | properties =>
    refine ⟨?_, rfl, rfl, rfl, rfl, hwrite fun level i => ?_⟩
    · exact congrArg (fun ms : List Member => !ms.isEmpty) h.members
    · rw [piece, piece, h.members]
  | equatable =>
    rcases Emitter.equatableTarget?_respelled h with ⟨hd, hd'⟩ | ⟨d, d', hd, hd', hplain⟩
    · refine ⟨?_, rfl, rfl, ?_, rfl, hwrite fun level i => ?_⟩
      · simp only [emitter, Emitter.equatable, hd, hd']
      · simp only [emitter, Emitter.equatable, hd, hd']
      · simp only [piece, hd, hd']
    · refine ⟨?_, rfl, rfl, ?_, rfl, hwrite fun level i => ?_⟩
      · simp only [emitter, Emitter.equatable, hd, hd', Option.isSome_some]
      · simp only [emitter, Emitter.equatable, hd, hd']
        rw [← d.genericName_plain, hplain, d'.genericName_plain]
      · simp only [piece, hd, hd']
        rw [Emitter.equatablePiece_respelled h, Emitter.equatablePiece_plain, hplain,
          ← Emitter.equatablePiece_plain]
  | snippet s hattributes => exact ⟨rfl, rfl, rfl, rfl, hattributes, hwrite fun _ _ => rfl⟩

end

namespace FileEmitter

variable {settings : Settings} {fileName : Option (TypeSpec → String)}
  {bs bs' : List (Builtin × Option FileOptions)} {spec spec' : TypeSpec} {siblings : Siblings}
  {ps ps' : List Participant}

/-! ### The lines from the attributes to the declaration -/

/-- **A block of attributes**: a line for each, or one line for all if there are
any. -/
def attributeBlock : (combined : Bool) → List String → List String
  | false, attributes => attributes.map fun a => "[" ++ a ++ "]"
  | true, [] => []
  | true, a :: attributes => ["[" ++ ", ".intercalate (a :: attributes) ++ "]"]

theorem attributeLines_eq_block (o : FileOptions) (attributes : List String) :
    attributeLines o attributes = attributeBlock o.combineAttributes attributes := by
  rw [attributeLines]
  cases attributes with
  | nil => cases o.combineAttributes <;> rfl
  | cons a attributes => cases o.combineAttributes <;> rfl

/-- The lines below the attributes: the mark of the assembly, if there is one,
and the declaration. -/
def declarationLines (o : FileOptions) (ps : List Participant) (target : String) : List String :=
  (o.assembly.map Assembly.marker).toList ++ [declarationLine o ps target]

/-- The text of a file above the attributes of its target. -/
def aboveAttributes (f : FileEmitter) (ns : Option String) (outer inner : List String)
    (target : String) (containing : List String) : String :=
  let i := f.settings.indent
  let base := baseLevel f.settings.file ns
  (f.writeTop ns outer inner).text ++ openings i base containing.reverse ++
    linesText i (base + containing.length) (Declaration.splitLeading target).1.toList

/-- **Where the attributes of a target stand**: above the mark of the assembly
and the declaration, and these right above the brace that opens the body. -/
theorem text_closeAll_attributes (f : FileEmitter) (spec : TypeSpec) (ps : List Participant)
    (outer inner : List String) (target : String) (containing : List String) (bodies : String) :
    let level := baseLevel f.settings.file spec.ns + containing.length
    ((f.writeHead spec ps outer inner target containing).put bodies).closeAll.text =
      f.aboveAttributes spec.ns outer inner target containing ++
        linesText f.settings.indent level
          (attributeBlock f.settings.file.combineAttributes
              (attributesOf f.settings.file spec ps) ++
            declarationLines f.settings.file ps target) ++
        (openLine f.settings.indent level ++ bodies ++
          closeLines f.settings.indent (level + 1)) := by
  intro level
  have hlines : targetLines f.settings.file spec ps target =
      (Declaration.splitLeading target).1.toList ++
        (attributeBlock f.settings.file.combineAttributes (attributesOf f.settings.file spec ps) ++
          declarationLines f.settings.file ps target) := by
    rw [targetLines, attributeLines_eq_block, declarationLines, declarationLine]
    simp only [List.append_assoc]
  rw [Writer.closeAll_eq, writeHead_eq, aboveAttributes]
  simp only [Writer.put, hlines, linesText, List.map_append, String.join_append,
    String.append_assoc, level]

/-! ### Two runs -/

/-- **The attributes of a target do not depend on their spelling.** -/
theorem attributesOf_twins {o o' : FileOptions} (hps : List.Forall₂ Participant.Twin ps ps')
    (ho : Attribute.Respells o.attributes o'.attributes)
    (hspec : Attribute.Respells spec.attributes spec'.attributes) :
    attributesOf o spec ps = attributesOf o' spec' ps' := by
  have hcontributed : Attribute.Respells (contributions Emitter.attributes ps)
      (contributions Emitter.attributes ps') := by
    rw [Attribute.Respells, contributions, contributions, List.flatMap_assoc, List.flatMap_assoc]
    exact contributions_eq hps (fun e c => (e.attributes c).flatMap Attribute.normalize)
      fun p p' hp => hp.attributes
  rw [Attribute.Respells] at ho hspec hcontributed
  simp only [attributesOf, List.flatMap_append, ho, hspec, hcontributed]

theorem related_participants_respelled (hspec : spec.Respells spec')
    (hbs : List.Forall₂ (fun b b' => b.1.Respells b'.1 ∧ b'.2 = b.2) bs bs')
    (attributes : List String) (combined : Bool) :
    Related (List.Forall₂ Participant.Twin)
      ((ofBuiltins settings fileName bs).participants spec siblings)
      ((ofBuiltins (settings.withAttributes attributes combined) fileName bs').participants spec'
        siblings) := by
  refine related_participants_of rfl rfl (hbs.imp ?_) fun p p' hp => hp.accepts
  rintro ⟨b, options⟩ ⟨b', options'⟩ ⟨hb, hoptions⟩
  refine ⟨hoptions, ?_, fun o o' ho => Builtin.twin hspec hb ho siblings⟩
  cases hb <;> rfl

/-- **Bodies of participants that put the same pieces** are the same, at the
same level and with the same indentation. -/
theorem related_writeBody_of {R : Participant → Participant → Prop} {f f' : FileEmitter}
    (hps : List.Forall₂ R ps ps')
    (hwrite : ∀ p p', R p p' → ∃ piece : Nat → Indent → Except Failure String,
      (∀ w, p.emitter.write p.context w = (piece w.level w.indent).map w.put) ∧
      ∀ w, p'.emitter.write p'.context w = (piece w.level w.indent).map w.put)
    (hspacing : f'.settings.file.emitterSpacing = f.settings.file.emitterSpacing) {w w' : Writer}
    (hlevel : w.level = w'.level) (hindent : w.indent = w'.indent) :
    Related (fun v v' => ∃ s s', s = s' ∧ v = w.put s ∧ v' = w'.put s') (f.writeBody ps w)
      (f'.writeBody ps' w') := by
  rw [writeBody_eq_after, writeBody_eq_after, hspacing]
  refine Bodies.related_after_of (R := Eq) (fun h => ?_) (hps.imp fun p p' hp => ?_) .nil
  · rw [List.forall₂_eq_eq_eq] at h
    rw [h]
  · obtain ⟨piece, hwrite, hwrite'⟩ := hwrite p p' hp
    refine ⟨piece w.level w.indent, _, .of_eq rfl, fun s => hwrite (w.put s), fun s => ?_⟩
    rw [hwrite', Writer.level_put, Writer.indent_put, hlevel, hindent]

/-- The text of a target from its attributes to the brace that opens its
body. -/
def targetText (s : Settings) (spec : TypeSpec) (ps : List Participant) (target : String)
    (level : Nat) (combined : Bool) : String :=
  linesText s.indent level
    (attributeBlock combined (attributesOf s.file spec ps) ++ declarationLines s.file ps target) ++
  openLine s.indent level

/-- **Two files in step**: with other spellings of the attributes, and perhaps
in the other mode, a file is there or is not as before, and it is the same but
for its block of attributes. These are the same attributes. -/
theorem related_generate_respelled {f f' : FileEmitter} {attributes : List String} {combined : Bool}
    (hf : f.settings = settings) (hf' : f'.settings = settings.withAttributes attributes combined)
    (hparts : Related (List.Forall₂ Participant.Twin) (f.participants spec siblings)
      (f'.participants spec' siblings))
    (hattributes : Attribute.Respells settings.file.attributes attributes)
    (hspec : spec.Respells spec') :
    Related (fun file file' => ∃ ps target containing above below,
        let level := baseLevel settings.file spec.ns + containing.length
        let text := fun combined =>
          above ++ targetText settings spec ps target level combined ++ below
        f.participants spec siblings = .ok ps ∧ spec.declarations = target :: containing ∧
        file = ⟨f.nameOf spec, text settings.file.combineAttributes⟩ ∧
        file' = ⟨f'.nameOf spec', text combined⟩)
      (f.generate spec siblings) (f'.generate spec' siblings) := by
  refine (related_generate_of (R := Participant.Twin) (B := Eq) hspec.declarations hspec.targetName
    hparts (fun ps ps' htwins => ?_) (fun ps ps' htwins => ?_)
    (fun ps ps' outer inner target containing htwins => ?_)).imp ?_
  · rw [hf, hf', contributions_eq htwins Emitter.outerUsings fun _ _ h => h.outerUsings]
    rfl
  · rw [innerUsings, innerUsings, hf, hf', ← hspec.ns,
      contributions_eq htwins Emitter.innerUsings fun _ _ h => h.innerUsings]
    rfl
  · refine related_writeBody_of htwins (fun _ _ h => h.write) (by rw [hf, hf']; rfl) ?_ ?_
    · rw [writeHead_eq, writeHead_eq, hf, hf', ← hspec.ns]
      rfl
    · rw [writeHead_eq, writeHead_eq, hf, hf']
      rfl
  rintro _ _ ⟨target, containing, ps, ps', outer, inner, bodies, _, hdecl, hps, htwins, -, -, rfl,
    rfl, rfl⟩
  have habove : f'.aboveAttributes spec.ns outer inner target containing =
      f.aboveAttributes spec.ns outer inner target containing := by
    rw [aboveAttributes, aboveAttributes, writeTop, writeTop, hf, hf']
    rfl
  have hsame : attributesOf settings.file spec ps =
      attributesOf (settings.withAttributes attributes combined).file spec' ps' :=
    attributesOf_twins htwins hattributes hspec.attributes
  have hbelow : declarationLines settings.file ps target =
      declarationLines (settings.withAttributes attributes combined).file ps' target := by
    rw [declarationLines, declarationLines, declarationLine, declarationLine, interfacesOf,
      interfacesOf, contributions_eq htwins Emitter.interfaces fun _ _ h => h.interfaces]
    rfl
  refine ⟨ps, target, containing, f.aboveAttributes spec.ns outer inner target containing,
    bodies ++ closeLines settings.indent (baseLevel settings.file spec.ns + containing.length + 1),
    hps, hdecl, ?_, ?_⟩
  · rw [text_closeAll_attributes, hf]
    simp only [targetText, String.append_assoc]
  · rw [text_closeAll_attributes, ← hspec.ns, habove, hf', ← hsame, ← hbelow]
    simp only [targetText, String.append_assoc]
    rfl

/-! ### The law of attributes -/

/-- **The attributes that a target is given**: those of the options, then those
of the specification, then those of the emitters that take part, in the order of
their registration, all normalized. -/
def givenAttributes (settings : Settings) (bs : List (Builtin × Option FileOptions))
    (spec : TypeSpec) (siblings : Siblings) : List String :=
  (settings.file.attributes ++ spec.attributes ++
    (taking settings bs spec siblings).flatMap fun t => t.1.emitter.attributes t.2).flatMap
      Attribute.normalize

theorem distinct_givenAttributes : Text.distinct (givenAttributes settings bs spec siblings) =
    attributesOf settings.file spec ((taking settings bs spec siblings).map .ofBuiltin) := by
  rw [givenAttributes, attributesOf, contributions, List.flatMap_map]
  rfl

/-- The two files of built-in emitters: how each is called, and what is written
in it. -/
theorem related_generate_ofBuiltins (siblings : Siblings) {attributes : List String}
    (combined : Bool) (hattributes : Attribute.Respells settings.file.attributes attributes)
    (hspec : spec.Respells spec')
    (hbs : List.Forall₂ (fun b b' => b.1.Respells b'.1 ∧ b'.2 = b.2) bs bs') :
    let f := ofBuiltins settings fileName bs
    let f' := ofBuiltins (settings.withAttributes attributes combined) fileName bs'
    let ps := (taking settings bs spec siblings).map Participant.ofBuiltin
    Related (fun file file' => ∃ target containing above below,
        let level := baseLevel settings.file spec.ns + containing.length
        let text := fun combined =>
          above ++ targetText settings spec ps target level combined ++ below
        spec.declarations = target :: containing ∧
        file = ⟨f.nameOf spec, text settings.file.combineAttributes⟩ ∧
        file' = ⟨f'.nameOf spec', text combined⟩)
      (f.generate spec siblings) (f'.generate spec' siblings) := by
  intro f f' ps
  have hsettings : ∀ s bs, (ofBuiltins s fileName bs).settings = s := fun s bs => by
    rw [ofBuiltins_eq]
  have hparts : Related (List.Forall₂ Participant.Twin) (f.participants spec siblings)
      (f'.participants spec' siblings) :=
    related_participants_respelled hspec hbs attributes combined
  refine (related_generate_respelled (hsettings settings bs) (hsettings _ bs') hparts hattributes
    hspec).imp ?_
  rintro file file' ⟨ps', target, containing, above, below, hps, hdecl, hfile, hfile'⟩
  obtain rfl : ps' = ps := participants_eq_taking hps
  exact ⟨target, containing, above, below, hdecl, hfile, hfile'⟩

/-- The name of a file is the same in both modes, and for two spellings unless a
function tells them apart. -/
theorem nameOf_respelled {attributes : List String} {combined : Bool} (htarget : spec.targetName =
    spec'.targetName) (hname : ∀ name ∈ fileName, name spec' = name spec) :
    (ofBuiltins (settings.withAttributes attributes combined) fileName bs').nameOf spec' =
      (ofBuiltins settings fileName bs).nameOf spec := by
  rw [ofBuiltins_eq, ofBuiltins_eq, nameOf, nameOf]
  cases fileName with
  | none => exact congrArg (· ++ settings.suffix) htarget.symm
  | some name => exact hname name rfl

/-- **The mode decides about the block of attributes and nothing else.** -/
theorem generate_in_both_modes (settings : Settings) (fileName : Option (TypeSpec → String))
    (bs : List (Builtin × Option FileOptions)) (spec : TypeSpec) (siblings : Siblings) :
    let ps := (taking settings bs spec siblings).map Participant.ofBuiltin
    (∃ e, ∀ combined, (ofBuiltins (settings.inMode combined) fileName bs).generate spec siblings =
      .error e) ∨
    ∃ target containing above below, spec.declarations = target :: containing ∧ ∀ combined,
      (ofBuiltins (settings.inMode combined) fileName bs).generate spec siblings =
        .ok ⟨(ofBuiltins settings fileName bs).nameOf spec,
          above ++ targetText settings spec ps target
            (baseLevel settings.file spec.ns + containing.length) combined ++ below⟩ := by
  intro ps
  -- One of the modes is that of the settings, and the other is not.
  have hmodes : ∀ P : Bool → Prop, P settings.file.combineAttributes →
      P (!settings.file.combineAttributes) → ∀ combined, P combined := by
    intro P hmode hother combined
    by_cases hcombined : combined = settings.file.combineAttributes
    · exact hcombined ▸ hmode
    · rwa [← Bool.eq_not_of_ne hcombined] at hother
  have hrefl : List.Forall₂ (fun b b' : Builtin × Option FileOptions =>
      b.1.Respells b'.1 ∧ b'.2 = b.2) bs bs :=
    List.forall₂_same.mpr fun b _ => ⟨.refl b.1, rfl⟩
  rcases (related_generate_ofBuiltins siblings (!settings.file.combineAttributes) rfl (.refl spec)
    hrefl).cases_eq with ⟨e, he, he'⟩ | ⟨file, file', hfile, hfile', target, containing, above,
      below, hdecl, rfl, rfl⟩
  · exact Or.inl ⟨e, hmodes _ he he'⟩
  · refine Or.inr ⟨target, containing, above, below, hdecl, hmodes _ hfile ?_⟩
    rwa [nameOf_respelled rfl fun _ _ => rfl] at hfile'

/-- **The spelling of attributes decides nothing.** -/
theorem generate_respelled (siblings : Siblings) {attributes : List String}
    (hattributes : Attribute.Respells settings.file.attributes attributes)
    (hspec : spec.Respells spec')
    (hbs : List.Forall₂ (fun b b' => b.1.Respells b'.1 ∧ b'.2 = b.2) bs bs') :
    let generated := (ofBuiltins settings fileName bs).generate spec siblings
    let generated' := (ofBuiltins (settings.withAttributes attributes
      settings.file.combineAttributes) fileName bs').generate spec' siblings
    generated'.map SourceFile.content = generated.map SourceFile.content ∧
      ((∀ name ∈ fileName, name spec' = name spec) → generated' = generated) := by
  intro generated generated'
  have hrelated : Related _ generated generated' :=
    related_generate_ofBuiltins siblings settings.file.combineAttributes hattributes hspec hbs
  rcases hrelated.cases_eq with ⟨e, he, he'⟩ | ⟨file, file', hfile, hfile', target, containing,
      above, below, -, rfl, rfl⟩
  · rw [he, he']
    exact ⟨rfl, fun _ => rfl⟩
  · rw [hfile, hfile']
    refine ⟨rfl, fun hname => ?_⟩
    rw [nameOf_respelled hspec.targetName hname]

/-- **The law of attributes.** A target has the attributes that it is given,
each once and at the place where it is given first. In the file they are a line
for each or one line for all, and nothing when there are none, and below them
are the mark of the assembly, if it is to be there, and the declaration. The
mode decides this and nothing else: in both modes there is no file for the same
reason, or there are two files that agree in all but these lines. The spelling
decides nothing: with other spellings of the same attributes, in any of the
places where they are given, the text of the file is the same, or there is none
for the same reason; and the file is the same, unless a function makes its name
from the spelling. -/
theorem attributes_law (settings : Settings) (fileName : Option (TypeSpec → String))
    (bs : List (Builtin × Option FileOptions)) (spec : TypeSpec) (siblings : Siblings) :
    let f := ofBuiltins settings fileName bs
    let given := givenAttributes settings bs spec siblings
    let L := Text.distinct given
    (L.Nodup ∧ (∀ a, a ∈ L ↔ a ∈ given) ∧ L.Pairwise fun a b => given.idxOf a < given.idxOf b) ∧
    ((∃ e, ∀ combined, (ofBuiltins (settings.inMode combined) fileName bs).generate spec siblings =
        .error e) ∨
      ∃ target containing above below, spec.declarations = target :: containing ∧ ∀ combined,
        let level := baseLevel settings.file spec.ns + containing.length
        let ps := (taking settings bs spec siblings).map Participant.ofBuiltin
        let lines := attributeBlock combined L ++
          ((settings.file.assembly.map Assembly.marker).toList ++
            [declarationLine settings.file ps target])
        (ofBuiltins (settings.inMode combined) fileName bs).generate spec siblings =
          .ok ⟨f.nameOf spec, above ++ (linesText settings.indent level lines ++
            openLine settings.indent level) ++ below⟩) ∧
    ∀ attributes spec' bs', Attribute.Respells settings.file.attributes attributes →
      spec.Respells spec' →
      List.Forall₂ (fun b b' => b.1.Respells b'.1 ∧ b'.2 = b.2) bs bs' →
      let generated := (ofBuiltins (settings.withAttributes attributes
        settings.file.combineAttributes) fileName bs').generate spec' siblings
      generated.map SourceFile.content = (f.generate spec siblings).map SourceFile.content ∧
        ((∀ name ∈ fileName, name spec' = name spec) → generated = f.generate spec siblings) := by
  intro f given L
  refine ⟨⟨Text.nodup_distinct _, fun a => Text.mem_distinct, Text.pairwise_distinct _⟩, ?_,
    fun attributes spec' bs' => generate_respelled siblings⟩
  have hmodes := generate_in_both_modes settings fileName bs spec siblings
  simp only [targetText, ← distinct_givenAttributes] at hmodes
  exact hmodes

/-- Attributes from all three places, some of them given twice, in two spellings
and in both modes. -/
theorem attributes_law_two_spellings :
    let raw (attributes : List String) : List (Builtin × Option FileOptions) :=
      [(.snippet { name := "raw", text := "int a;", attributes }, none)]
    let settings (attributes : List String) : Settings :=
      { file := { attributes, assembly := some ⟨"Shop.Generators", "1.0"⟩ } }
    let spec (attributes : List String) : TypeSpec :=
      { ns := none, declarations := ["class Order"], attributes,
        target := .desc { TypeDesc.ofName "Order" with attributes } }
    let block := "[Serializable]\n[A]\n[B]\n[C]\n"
    let top :=
      "// <auto-generated/>\n\n#nullable enable annotations\n#nullable disable warnings\n\n"
    let rest := "[global::System.CodeDom.Compiler.GeneratedCodeAttribute(\"Shop.Generators\", " ++
      "\"1.0\")]\nclass Order\n\x7b\n    int a;\n\x7d"
    (ofBuiltins (settings ["Serializable", "[A][B]"]) none (raw ["[C]", "A"])).generate
        (spec [" B "]) .empty = .ok ⟨"Order.g.cs", top ++ block ++ rest⟩ ∧
      (ofBuiltins (settings ["[Serializable] [A]", "B"]) none (raw [" C", "[ A ]"])).generate
        (spec ["[B] [ ]"]) .empty = .ok ⟨"Order.g.cs", top ++ block ++ rest⟩ ∧
      (ofBuiltins ((settings ["Serializable", "[A][B]"]).inMode true) none
        (raw ["[C]", "A"])).generate (spec [" B "]) .empty =
          .ok ⟨"Order.g.cs", top ++ "[Serializable, A, B, C]\n" ++ rest⟩ := by
  intro raw settings spec block top rest
  have hfile : (ofBuiltins (settings ["Serializable", "[A][B]"]) none (raw ["[C]", "A"])).generate
      (spec [" B "]) .empty = .ok ⟨"Order.g.cs", top ++ block ++ rest⟩ := by
    decide +kernel
  obtain ⟨-, -, hspelling⟩ := attributes_law (settings ["Serializable", "[A][B]"]) none
    (raw ["[C]", "A"]) (spec [" B "]) .empty
  have hsettings : Attribute.Respells ["Serializable", "[A][B]"] ["[Serializable] [A]", "B"] := by
    rw [Attribute.Respells]
    decide +kernel
  have hspec : (spec [" B "]).Respells (spec ["[B] [ ]"]) :=
    ⟨rfl, rfl, rfl, by rw [Attribute.Respells]; decide +kernel, rfl, rfl⟩
  have hraw : Attribute.Respells ["[C]", "A"] [" C", "[ A ]"] := by
    rw [Attribute.Respells]
    decide +kernel
  obtain ⟨-, hsame⟩ := hspelling _ _ (raw [" C", "[ A ]"]) hsettings hspec
    (.cons ⟨.snippet _ hraw, rfl⟩ .nil)
  exact ⟨hfile, (hsame fun name hname => nomatch hname).trans hfile, by decide +kernel⟩

end FileEmitter

end SharpSource
