import SharpSource.Proofs.AttributeBlocks
import SharpSource.Proofs.Independence
import SharpSource.Proofs.LeadingLines

/-!
# Documentation comments

The comment of an entry is put in front of the declaration of its target, and
the two become one text. What is written is cut out of this text again: the
lines that lead, and the line that declares. That the comment comes out as it
went in, and that the rest comes out as it would have without it, is a matter of
lines. No line of a comment is empty or ends in a carriage return
(`docLines_plain`), and the first line of a declaration starts with the keyword
of an accessibility. So the lines of both together are those of the comment and
then those of the declaration (`Declaration.linesOf_docComment`), and a line
that is lost without the comment is the one that is lost with it.

All other parts of a file do not look at declarations. So a file with a comment
is the file without it, with the lines of the comment inserted above the lines
of the target (`Manifest.fileFor_documented`).
-/

namespace SharpSource

open Layout
open Outcome (Related)
open Writer (margin)

/-! ### The lines of a comment -/

/-- A line of a comment, of which the text is trimmed. -/
def commentLine (l : String) : String :=
  "/// " ++ Text.trim l

theorem startsWith_commentLine (l : String) : Text.startsWith "///" (commentLine l) = true := by
  have hstart : "///".toList <+: "/// ".toList := by decide
  rw [Text.startsWith_iff, commentLine, String.toList_append]
  exact hstart.trans (List.prefix_append _ _)

theorem not_mem_commentLine {l : String} (h : '\n' ∉ l.toList) :
    '\n' ∉ (commentLine l).toList := by
  have htrim : '\n' ∉ (Text.trim l).toList := by
    rw [Text.trim, String.toList_ofList]
    exact fun hmem => h (Text.mem_of_mem_trimChars hmem)
  rw [commentLine, String.toList_append, List.mem_append, not_or]
  exact ⟨by decide, htrim⟩

/-- A text that is trimmed does not end in a blank; where nothing is left of it,
there is a space. -/
theorem getLast?_commentLine (l : String) : (commentLine l).toList.getLast? ≠ some '\r' := by
  rw [commentLine, String.toList_append, List.getLast?_append, Text.trim, String.toList_ofList]
  cases htrim : (Text.trimChars l.toList).getLast? with
  | none => decide
  | some c =>
    rw [Option.some_or, Ne, Option.some_inj]
    rintro rfl
    exact absurd (Text.isBlank_getLast?_dropBlankEnd _ htrim) (by decide)

theorem docLines_eq (doc : String) : docLines doc =
    ["/// <summary>"] ++ (Text.lines (Text.trim doc)).map commentLine ++ ["/// </summary>"] := rfl

/-- **The lines of a comment** start like comments, have no line feeds in them
and do not end in carriage returns. -/
theorem docLines_plain {doc l : String} (h : l ∈ docLines doc) :
    Text.startsWith "///" l = true ∧ '\n' ∉ l.toList ∧ l.toList.getLast? ≠ some '\r' := by
  rw [docLines_eq, List.mem_append, List.mem_append] at h
  rcases h with (h | h) | h
  · rw [List.mem_singleton.mp h]
    decide +kernel
  · obtain ⟨l', hl', rfl⟩ := List.mem_map.mp h
    exact ⟨startsWith_commentLine l', not_mem_commentLine (Text.not_mem_of_mem_lines hl'),
      getLast?_commentLine l'⟩
  · rw [List.mem_singleton.mp h]
    decide +kernel

theorem getLast?_docLines (doc : String) : (docLines doc).getLast? = some "/// </summary>" :=
  List.getLast?_concat

theorem docLines_ne_nil (doc : String) : docLines doc ≠ [] := by
  simp [docLines]

/-! ### A comment in front of a declaration -/

namespace Declaration

variable {target : String}

/-- **A text starts solid** when its first character is not blank. -/
def StartsSolid (s : String) : Prop :=
  ∃ c cs, s.toList = c :: cs ∧ Text.isBlank c = false

theorem StartsSolid.append {s : String} (h : StartsSolid s) (s' : String) :
    StartsSolid (s ++ s') := by
  obtain ⟨c, cs, hs, hc⟩ := h
  exact ⟨c, cs ++ s'.toList, by rw [String.toList_append, hs, List.cons_append], hc⟩

theorem startsSolid_keyword {a : Accessibility} {keyword : String} (h : a.keyword? = some keyword) :
    StartsSolid keyword := by
  cases a <;> cases h <;> exact ⟨_, _, rfl, by decide⟩

/-- A declaration starts with the keyword of an accessibility. -/
theorem startsSolid_ofDesc {d : TypeDesc} (h : ofDesc d = .ok target) : StartsSolid target := by
  obtain ⟨access, haccess, h⟩ := Outcome.bind_eq_ok_iff.mp h
  obtain ⟨word, -, h⟩ := Outcome.bind_eq_ok_iff.mp h
  have hkeyword : StartsSolid access := by
    rw [accessibility] at haccess
    split at haccess
    · rename_i keyword hkeyword
      cases haccess
      exact startsSolid_keyword hkeyword
    · cases haccess
  have hheader := (((hkeyword.append " ").append (modifiers d)).append word).append " " |>.append
    d.genericName
  rw [← Except.ok.inj h]
  split
  · exact hheader
  · exact (hheader.append " : ").append _

/-- The first line of such a text is not empty. -/
theorem head?_linesOf (h : StartsSolid target) : (linesOf target).head? ≠ some "" := by
  obtain ⟨c, cs, htarget, hc⟩ := h
  have htrim : (Text.trimEnd target).toList = c :: Text.dropBlankEnd cs := by
    rw [Text.trimEnd, String.toList_ofList, htarget]
    exact Text.dropBlankEnd_append_cons hc [] cs
  have hfeed : (c == '\n') = false := by
    rw [beq_eq_false_iff_ne]
    rintro rfl
    exact absurd hc (by decide)
  rw [linesOf, Text.split, htrim, Text.pieces, hfeed]
  obtain ⟨w, ws, hpieces⟩ := List.exists_cons_of_ne_nil
    (Text.pieces_ne_nil (· == '\n') (Text.dropBlankEnd cs))
  simp [hpieces]

/-- **Lines in front of a declaration** are its first lines. -/
theorem linesOf_intercalate_append {ls : List String} (hne : ls ≠ [])
    (hfeed : ∀ l ∈ ls, '\n' ∉ l.toList) (h : StartsSolid target) :
    linesOf ("\n".intercalate ls ++ "\n" ++ target) = ls ++ linesOf target := by
  obtain ⟨c, cs, htarget, hc⟩ := h
  have htrim : Text.dropBlankEnd target.toList = c :: Text.dropBlankEnd cs := by
    rw [htarget]
    exact Text.dropBlankEnd_append_cons hc [] cs
  have hboth : Text.dropBlankEnd ("\n".intercalate ls ++ "\n" ++ target).toList =
      ("\n".intercalate ls).toList ++ '\n' :: Text.dropBlankEnd target.toList := by
    rw [String.toList_append, htarget, Text.dropBlankEnd_append_cons hc, ← htarget, htrim]
    simp
  have hlines : Text.split '\n' ("\n".intercalate ls) = ls :=
    split_eq_of_ended hne hfeed (ended_eq_intercalate hne).symm
  rw [Text.split] at hlines
  rw [linesOf, linesOf, Text.split, Text.split, Text.trimEnd, Text.trimEnd, String.toList_ofList,
    String.toList_ofList, hboth, Text.pieces_append_cons rfl, List.map_append, hlines]

/-- Lines that are put in front are all kept, unless they end in an empty line,
or a single empty line comes after them. -/
theorem keptLines_append {ls above : List String} (hls : ls.getLast? ≠ some "")
    (habove : above ≠ [""]) : keptLines (ls ++ above) = ls ++ keptLines above := by
  rcases above.eq_nil_or_concat' with rfl | ⟨before, l, rfl⟩
  · have hloses : ¬LosesLine ls := fun hloses => hls hloses.2
    have hnil : keptLines [] = [] := if_neg fun hloses => hloses.ne_nil rfl
    rw [List.append_nil, hnil, List.append_nil, keptLines, if_neg hloses]
  · by_cases hl : l = ""
    · subst hl
      have hbefore : before ≠ [] := fun hnil => habove (by rw [hnil]; rfl)
      rw [← List.append_assoc, keptLines_concat_empty hbefore,
        keptLines_concat_empty (List.append_ne_nil_of_right_ne_nil ls hbefore)]
    · rw [← List.append_assoc, keptLines_concat_of_ne hl, keptLines_concat_of_ne hl,
        List.append_assoc]

/-- **A comment leads a declaration** in front of all that leads it otherwise,
and leaves the line that declares. -/
theorem splitLeading_docComment (h : StartsSolid target) (doc : String) (i : Indent) (level : Nat) :
    let documented := "\n".intercalate (docLines doc) ++ "\n" ++ target
    (splitLeading documented).2 = (splitLeading target).2 ∧
      linesText i level (splitLeading documented).1.toList =
        ended ((docLines doc).map (margin i level ++ ·)) ++
          linesText i level (splitLeading target).1.toList := by
  intro documented
  obtain ⟨above, last, hlines⟩ := exists_linesOf_eq target
  have hdocumented : linesOf documented = (docLines doc ++ above) ++ [last] := by
    rw [List.append_assoc, ← hlines]
    exact linesOf_intercalate_append (docLines_ne_nil doc) (fun l hl => (docLines_plain hl).2.1) h
  have habove : above ≠ [""] := by
    rintro rfl
    exact head?_linesOf h (by rw [hlines]; rfl)
  have hlast : (docLines doc).getLast? ≠ some "" := by
    rw [getLast?_docLines]
    decide
  have hbare : (docLines doc).map (fun l => margin i level ++ bareLine l) =
      (docLines doc).map (margin i level ++ ·) :=
    List.map_congr_left fun l hl => by rw [bareLine_eq_self (docLines_plain hl).2.2]
  refine ⟨?_, ?_⟩
  · rw [splitLeading_eq hdocumented, splitLeading_eq hlines]
  · rw [linesText_leading hdocumented, linesText_leading hlines, keptLines_append hlast habove,
      List.map_append, ended_append, hbare]

end Declaration

/-! ### Files with a comment -/

theorem Participant.Twin.of_agree (b : Builtin) {c c' : Context} (h : b.emitter.Agree c c') :
    Participant.Twin ⟨b.emitter, c⟩ ⟨b.emitter, c'⟩ where
  accepts := h.accepts
  outerUsings := h.outerUsings
  innerUsings := h.innerUsings
  interfaces := h.interfaces
  attributes := by rw [Attribute.Respells, h.attributes]
  write := ⟨b.piece c, b.write_eq c, fun w => (h.write w).symm.trans (b.write_eq c w)⟩

/-- No built-in emitter looks at the declarations. -/
theorem Builtin.agree_declared (b : Builtin) (spec : TypeSpec) (declarations : List String)
    (o : FileOptions) (siblings : Siblings) :
    b.emitter.Agree ⟨spec, o, siblings⟩ ⟨{ spec with declarations }, o, siblings⟩ := by
  cases b <;> constructor <;> intros <;> rfl

namespace FileEmitter

variable {f : FileEmitter} {spec spec' : TypeSpec}

theorem related_participants_moved {siblings siblings' : Siblings}
    (hslots : ∀ slot ∈ f.slots, ∃ b : Builtin, slot.emitter = b.emitter)
    (h : ∀ slot ∈ f.slots, ∀ o, slot.emitter.Agree ⟨spec, o, siblings⟩ ⟨spec', o, siblings'⟩) :
    Related (List.Forall₂ Participant.Twin) (f.participants spec siblings)
      (f.participants spec' siblings') := by
  rw [participants_moved h]
  cases hps : f.participants spec siblings with
  | error e => exact .error e
  | ok ps =>
    refine .ok ?_
    rw [List.forall₂_map_right_iff, List.forall₂_same]
    intro p hp
    obtain ⟨slot, hslot, o, -, rfl, -⟩ := (mem_participants_iff hps).mp hp
    obtain ⟨b, hb⟩ := hslots slot hslot
    have hagree := h slot hslot o
    rw [hb] at hagree
    simp only [Participant.moved, hb]
    exact .of_agree b hagree

/-- The text of a file above the lines of its target. -/
def aboveTarget (f : FileEmitter) (ns : Option String) (outer inner containing : List String) :
    String :=
  (f.writeTop ns outer inner).text ++
    openings f.settings.indent (baseLevel f.settings.file ns) containing.reverse

theorem text_closeAll_target (f : FileEmitter) (spec : TypeSpec) (ps : List Participant)
    (outer inner : List String) (target : String) (containing : List String) (bodies : String) :
    let level := baseLevel f.settings.file spec.ns + containing.length
    ((f.writeHead spec ps outer inner target containing).put bodies).closeAll.text =
      f.aboveTarget spec.ns outer inner containing ++
        linesText f.settings.indent level (targetLines f.settings.file spec ps target) ++
        (openLine f.settings.indent level ++ bodies ++
          closeLines f.settings.indent (level + 1)) := by
  intro level
  rw [Writer.closeAll_eq, writeHead_eq, aboveTarget]
  simp only [Writer.put, String.append_assoc, level]

/-- **The lines of a target with a comment** are those of the comment and then
those without it. -/
theorem linesText_targetLines_docComment {ps ps' : List Participant} {target : String}
    (hps : List.Forall₂ Participant.Twin ps ps') (h : Declaration.StartsSolid target)
    (o : FileOptions) (hattributes : spec.attributes = spec'.attributes) (doc : String) (i : Indent)
    (level : Nat) :
    linesText i level
        (targetLines o spec' ps' ("\n".intercalate (docLines doc) ++ "\n" ++ target)) =
      ended ((docLines doc).map (margin i level ++ ·)) ++
        linesText i level (targetLines o spec ps target) := by
  obtain ⟨hlast, hleading⟩ := Declaration.splitLeading_docComment h doc i level
  have hsame : attributesOf o spec' ps' = attributesOf o spec ps :=
    (attributesOf_twins hps rfl (by rw [Attribute.Respells, hattributes])).symm
  have hinterfaces : interfacesOf o ps' = interfacesOf o ps := by
    rw [interfacesOf, interfacesOf,
      contributions_eq hps Emitter.interfaces fun _ _ hp => hp.interfaces]
  have happend : ∀ ls ls', linesText i level (ls ++ ls') = linesText i level ls ++
      linesText i level ls' := fun ls ls' => by
    rw [linesText, List.map_append, String.join_append]
    rfl
  rw [targetLines, targetLines, hlast, hsame, hinterfaces]
  generalize "\n".intercalate (docLines doc) ++ "\n" ++ target = documented at hleading
  simp only [happend, hleading, String.append_assoc]

/-- **A comment is inserted** above the lines of the target. -/
theorem related_generate_withDoc {target : String} {containing : List String}
    (hslots : ∀ slot ∈ f.slots, ∃ b : Builtin, slot.emitter = b.emitter) (hfile : f.fileName = none)
    (hspec : spec.declarations = target :: containing) (h : Declaration.StartsSolid target)
    (doc : String) (siblings : Siblings) :
    Related (fun file file' => ∃ ps outer inner below,
        let level := baseLevel f.settings.file spec.ns + containing.length
        let text := linesText f.settings.indent level (targetLines f.settings.file spec ps target)
        let comment := ended ((docLines doc).map (margin f.settings.indent level ++ ·))
        let above := f.aboveTarget spec.ns outer inner containing
        f.participants spec siblings = .ok ps ∧
        file = ⟨f.nameOf spec, above ++ text ++ below⟩ ∧
        file' = ⟨f.nameOf spec, above ++ comment ++ text ++ below⟩)
      (f.generate spec siblings) (f.generate (spec.withDoc doc) siblings) := by
  have hwithDoc : spec.withDoc doc = { spec with
      declarations := ("\n".intercalate (docLines doc) ++ "\n" ++ target) :: containing } := by
    rw [TypeSpec.withDoc, hspec]
  have hagree : ∀ slot ∈ f.slots, ∀ o,
      slot.emitter.Agree ⟨spec, o, siblings⟩ ⟨spec.withDoc doc, o, siblings⟩ := by
    intro slot hslot o
    obtain ⟨b, hb⟩ := hslots slot hslot
    rw [hb, hwithDoc]
    exact b.agree_declared spec _ o siblings
  have hns : (spec.withDoc doc).ns = spec.ns := by rw [hwithDoc]
  let level := baseLevel f.settings.file spec.ns + containing.length
  refine (related_generate_of_declarations (R := Participant.Twin) (B := Eq) hspec
    (by rw [hwithDoc]) (related_participants_moved hslots hagree) (fun ps ps' hps => ?_)
    (fun ps ps' hps => ?_) (fun ps ps' outer inner hps => ?_)).imp ?_
  · rw [contributions_eq hps Emitter.outerUsings fun _ _ hp => hp.outerUsings]
  · rw [innerUsings, innerUsings, hns,
      contributions_eq hps Emitter.innerUsings fun _ _ hp => hp.innerUsings]
  · refine related_writeBody_of hps (fun _ _ h => h.write) rfl ?_ ?_
    · rw [writeHead_eq, writeHead_eq, hns]
    · rw [writeHead_eq, writeHead_eq]
  rintro _ _ ⟨ps, ps', outer, inner, bodies, _, hps, htwins, -, -, rfl, rfl, rfl⟩
  refine ⟨ps, outer, inner, openLine f.settings.indent level ++ bodies ++
    closeLines f.settings.indent (level + 1), hps, ?_, ?_⟩
  · rw [text_closeAll_target]
  · have hname : f.nameOf (spec.withDoc doc) = f.nameOf spec := by
      rw [nameOf, nameOf, hfile, hwithDoc]
      rfl
    have hattributes : spec.attributes = (spec.withDoc doc).attributes := by rw [hwithDoc]
    rw [text_closeAll_target, hns, hname, linesText_targetLines_docComment htwins h _ hattributes]
    simp only [String.append_assoc, level]

end FileEmitter

/-! ### Manifests with a comment -/

/-- The first declaration of a specification is that of its target. -/
theorem TypeSpec.exists_declarations_of_ofDesc {d : TypeDesc} {others : List Descriptor}
    {spec : TypeSpec} (h : ofDesc d others = .ok spec) :
    ∃ target containing, spec.declarations = target :: containing ∧
      Declaration.ofDesc d = .ok target := by
  obtain ⟨declarations, hdeclarations, ⟨⟩⟩ := Outcome.bind_eq_ok_iff.mp h
  rw [Declaration.nest, List.mapM_cons] at hdeclarations
  obtain ⟨target, htarget, hrest⟩ := Outcome.bind_eq_ok_iff.mp hdeclarations
  obtain ⟨containing, -, ⟨⟩⟩ := Outcome.bind_eq_ok_iff.mp hrest
  exact ⟨target, containing, rfl, htarget⟩

/-- The entry with another comment, or with none. -/
def TypeEntry.withDoc (e : TypeEntry) (doc : Option String) : TypeEntry :=
  { e with doc }

namespace Manifest

/-- The manifest with another comment for the entry of a name, or with none. -/
def redocument (m : Manifest) (name : String) (doc : Option String) : Manifest :=
  { m with types := m.types.map fun e => if e.name = name then e.withDoc doc else e }

/-- A text finds the same entry, but for its comment. -/
theorem findType?_redocument (m : Manifest) (name : String) (doc : Option String) (text : String) :
    ((m.redocument name doc).findType? text).map TypeEntry.referred =
      (m.findType? text).map TypeEntry.referred := by
  have hentry : ∀ e : TypeEntry, TypeEntry.referred (if e.name = name then e.withDoc doc else e) =
      e.referred := fun e => by split <;> rfl
  have hanswers : ∀ e : TypeEntry,
      ((if e.name = name then e.withDoc doc else e).name == unaliased text ||
        (if e.name = name then e.withDoc doc else e).fullName == unaliased text) =
      (e.name == unaliased text || e.fullName == unaliased text) := fun e => by split <;> rfl
  rw [findType?, findType?, redocument, List.find?_map, Option.map_map]
  simp only [Function.comp_def, hentry, hanswers]

/-- **Comments do not count for other entries**, nor for what is generated from
an entry itself. -/
theorem fileFor_redocument (m : Manifest) (name : String) (doc : Option String) (e : TypeEntry) :
    (m.redocument name doc).fileFor e = m.fileFor e := by
  have hdescribe : (m.redocument name doc).describe e = m.describe e :=
    describe_congr fun member _ => findType?_redocument m name doc member.base
  have hgenerator : (m.redocument name doc).generator = m.generator := rfl
  have hoptions : (m.redocument name doc).options = m.options := rfl
  exact fileFor_eq_of_describe hgenerator hoptions hdescribe

/-- The files of an entry with a comment and without one. -/
theorem related_fileFor_withDoc (m : Manifest) (e : TypeEntry) (doc : String) :
    Related (fun file file' => ∃ settings spec target containing ps outer inner below,
        let level := FileEmitter.baseLevel settings.file spec.ns + containing.length
        let text := linesText settings.indent level
          (FileEmitter.targetLines settings.file spec ps target)
        let comment := ended ((docLines doc).map (margin settings.indent level ++ ·))
        let above := (e.fileEmitter settings).aboveTarget spec.ns outer inner containing
        m.settings = .ok settings ∧ TypeSpec.ofDesc (m.describe e) [] = .ok spec ∧
        spec.declarations = target :: containing ∧
        (e.fileEmitter settings).participants spec .empty = .ok ps ∧
        file.content = above ++ text ++ below ∧
        file' = { file with content := above ++ comment ++ text ++ below })
      (m.fileFor (e.withDoc none)) (m.fileFor (e.withDoc (some doc))) := by
  rw [fileFor, fileFor]
  refine (Related.of_eq rfl).left.bind ?_
  rintro settings _ ⟨rfl, hsettings⟩
  rw [fileOf_eq, fileOf_eq]
  refine (Related.of_eq rfl).left.bind ?_
  rintro spec _ ⟨rfl, hspec⟩
  replace hspec : TypeSpec.ofDesc (m.describe e) [] = .ok spec := emitting_eq_ok_iff.mp hspec
  obtain ⟨target, containing, hdecl, htarget⟩ := TypeSpec.exists_declarations_of_ofDesc hspec
  have hslots : ∀ slot ∈ (e.fileEmitter settings).slots, ∃ b : Builtin, slot.emitter = b.emitter :=
    fun slot hslot => by
      obtain ⟨b, -, hb⟩ := TypeEntry.exists_builtin_of_mem_slots hslot
      exact ⟨b, hb⟩
  have hemitter : (e.fileEmitter settings).settings = settings ∧
      (e.fileEmitter settings).fileName = none := by
    rw [TypeEntry.fileEmitter_eq]
    exact ⟨rfl, rfl⟩
  have hrelated := FileEmitter.related_generate_withDoc hslots hemitter.2 hdecl
    (Declaration.startsSolid_ofDesc htarget) doc .empty
  refine (hrelated.mapError (ManifestError.emission e.name)).imp ?_
  rintro _ _ ⟨ps, outer, inner, below, hps, rfl, rfl⟩
  rw [hemitter.1]
  exact ⟨settings, spec, target, containing, ps, outer, inner, below, hsettings, hspec, hdecl, hps,
    rfl, rfl⟩

/-- **A comment is a local insertion.** With a comment an entry fails as it does
without one, or it has the same file with one block of lines inserted, directly
above the first line of the target and behind the margin of its declaration: the
lines of the trimmed comment, each trimmed and behind a mark, between the two
lines of a summary. Every line of the block starts with the mark, and has no
line feed in it that could end it early. The lines of the target stay as they
are, with its attributes and its base list, and so do the files of all other
entries. -/
theorem fileFor_documented (m : Manifest) (e : TypeEntry) (doc : String) :
    let plain := (m.redocument e.name none).fileFor (e.withDoc none)
    let documented := (m.redocument e.name (some doc)).fileFor (e.withDoc (some doc))
    let comment := ["/// <summary>"] ++
      (Text.lines (Text.trim doc)).map (fun l => "/// " ++ Text.trim l) ++ ["/// </summary>"]
    ((∃ err, plain = .error err ∧ documented = .error err) ∨
      ∃ settings spec target containing ps outer inner name below,
        let level := FileEmitter.baseLevel settings.file spec.ns + containing.length
        let text := linesText settings.indent level
          (FileEmitter.targetLines settings.file spec ps target)
        let above := (e.fileEmitter settings).aboveTarget spec.ns outer inner containing
        m.settings = .ok settings ∧ TypeSpec.ofDesc (m.describe e) [] = .ok spec ∧
        spec.declarations = target :: containing ∧
        (e.fileEmitter settings).participants spec .empty = .ok ps ∧
        plain = .ok ⟨name, above ++ text ++ below⟩ ∧
        documented = .ok ⟨name, above ++ ended (comment.map (margin settings.indent level ++ ·)) ++
          text ++ below⟩) ∧
    (∀ l ∈ comment, Text.startsWith "///" l = true ∧ '\n' ∉ l.toList) ∧
    ∀ t, (m.redocument e.name (some doc)).fileFor t = (m.redocument e.name none).fileFor t := by
  intro plain documented comment
  have hplain : plain = m.fileFor (e.withDoc none) := fileFor_redocument m e.name none _
  have hdocumented : documented = m.fileFor (e.withDoc (some doc)) :=
    fileFor_redocument m e.name (some doc) _
  refine ⟨?_, fun l hl => ?_, fun t => ?_⟩
  · rw [hplain, hdocumented]
    refine (related_fileFor_withDoc m e doc).cases_eq.imp_right ?_
    rintro ⟨⟨name, _⟩, _, hfile, hfile', settings, spec, target, containing, ps, outer, inner,
      below, hsettings, hspec, hdecl, hps, rfl, rfl⟩
    exact ⟨settings, spec, target, containing, ps, outer, inner, name, below, hsettings, hspec,
      hdecl, hps, hfile, hfile'⟩
  · obtain ⟨hstart, hfeed, -⟩ := docLines_plain hl
    exact ⟨hstart, hfeed⟩
  · rw [fileFor_redocument, fileFor_redocument]

/-- Blank lines and line ends of two characters in a comment: each line has its
mark. -/
example : docLines " An order.\r\n\r\n  Of goods. \n" =
    ["/// <summary>", "/// An order.", "/// ", "/// Of goods.", "/// </summary>"] := by
  decide +kernel

end Manifest

end SharpSource
