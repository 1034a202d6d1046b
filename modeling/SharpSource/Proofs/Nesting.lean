import SharpSource.Proofs.Participation
import SharpSource.Proofs.Pieces

/-!
# The nesting of a file

A file is written by one writer from the top to the bottom. The blocks of the
namespace, of the types around the target and of the target are opened in a
row, and in the end one operation closes whatever is open. That every brace
stands at the level of the block that it closes is not visible anywhere in the
code; it holds because the level counts the open blocks all the time.

The invariant is the pair of level and text. Above the body the text is that of
`Layout.openings` and the level is the number of blocks (`writeHead_eq`). The
body adds text and gives the level back (`moreText_writeBodies`), as long as
every emitter does. Then `Layout.openings_append_closeLines` turns the whole
into nested blocks (`FileEmitter.text_closeAll`).
-/

namespace SharpSource

open Layout
open Writer (lineText)

namespace FileEmitter

/-! ### Above the declarations -/

/-- **The base level** of the declarations of a file: one in a block for
the namespace, and else zero. -/
def baseLevel (o : FileOptions) : Option String → Nat
  | some _ => if o.fileScopedNamespace then 0 else 1
  | none => 0

/-- Everything above the declarations: the preamble, the outer usings, the start
of the namespace and the inner usings. -/
def writeTop (f : FileEmitter) (ns : Option String) (outer inner : List String) : Writer :=
  let o := f.settings.file
  writeScope o ns inner (writeUsings o outer (writePreamble o { indent := f.settings.indent }))

section Top

variable (o : FileOptions) (w : Writer) (directives : List String) (ns : Option String)

theorem moreText_writePreamble : w.MoreText (writePreamble o w) := by
  have hheader : w.MoreText (w.line (o.header.getD defaultHeader)).blankLine :=
    (Writer.moreText_line w _).trans ⟨"\n", rfl⟩
  have hnullable := (hheader.trans (Writer.moreText_line _
    ("#nullable " ++ switchWord o.nullableAnnotations ++ " annotations"))).trans
    (Writer.moreText_line _ ("#nullable " ++ switchWord o.nullableWarnings ++ " warnings"))
  have hspaced := hnullable.trans (Writer.moreText_blankLines _ o.sectionSpacing)
  rw [writePreamble]
  split
  · exact hspaced
  · exact (hspaced.trans (Writer.moreText_line _ _)).trans (Writer.moreText_blankLines _ _)

theorem moreText_writeUsings : w.MoreText (writeUsings o directives w) := by
  rw [writeUsings]
  split
  · exact Writer.MoreText.refl w
  · exact (Writer.moreText_line w _).trans (Writer.moreText_blankLines _ _)

/-- A namespace takes the level up when it is a block, and else only adds
text. -/
theorem writeScope_eq : ∃ s, writeScope o ns directives w =
    { w.put s with level := w.level + baseLevel o ns } := by
  cases ns with
  | none =>
    obtain ⟨s, hs⟩ := Writer.MoreText.refl w
    exact ⟨s, hs⟩
  | some ns =>
    rw [writeScope, writeNamespace, baseLevel]
    by_cases h : o.fileScopedNamespace
    · rw [if_pos h, if_pos h]
      obtain ⟨s, hs⟩ := ((Writer.moreText_line w ("namespace " ++ ns ++ ";")).trans
        (Writer.moreText_blankLines _ o.sectionSpacing)).trans (moreText_writeUsings o _ directives)
      exact ⟨s, hs⟩
    · -- The inner usings stand in the block already; they are text like any other.
      rw [if_neg h, if_neg h]
      obtain ⟨s, hs⟩ := moreText_writeUsings o (w.line ("namespace " ++ ns)).openBlock directives
      rw [hs, Writer.openBlock_eq]
      simp only [Writer.put, Writer.line, String.append_assoc]
      exact ⟨_, rfl⟩

end Top

/-- The level above the declarations is the base level. -/
theorem writeTop_eq (f : FileEmitter) (ns : Option String) (outer inner : List String) :
    f.writeTop ns outer inner =
      ⟨(f.writeTop ns outer inner).text, baseLevel f.settings.file ns, f.settings.indent⟩ := by
  obtain ⟨s, hs⟩ := (moreText_writePreamble f.settings.file { indent := f.settings.indent }).trans
    (moreText_writeUsings f.settings.file _ outer)
  obtain ⟨s', hs'⟩ := writeScope_eq f.settings.file (Writer.put { indent := f.settings.indent } s)
    inner ns
  rw [writeTop, hs, hs']
  simp [Writer.put]

/-! ### The declarations -/

theorem openContaining_eq (declarations : List String) (w : Writer) :
    openContaining declarations w =
      { w.put (openings w.indent w.level declarations.reverse) with
        level := w.level + declarations.length } := by
  rw [openContaining, ← List.length_reverse]
  induction declarations.reverse generalizing w with
  | nil => simp [openings, Writer.put]
  | cons d ds ih =>
    rw [List.foldl_cons, ih, Writer.openBlock_eq]
    simp only [openings, Writer.put, Writer.line, String.append_assoc, List.length_cons]
    congr 1
    omega

/-- The lines of the target above its body: what leads it, its attributes, the
mark of the assembly and the declaration itself, with all that it derives
from. -/
def targetLines (o : FileOptions) (spec : TypeSpec) (ps : List Participant) (target : String) :
    List String :=
  (Declaration.splitLeading target).1.toList ++ attributeLines o (attributesOf o spec ps) ++
    (o.assembly.map Assembly.marker).toList ++
    [BaseList.extend (Declaration.splitLeading target).2 o.baseType (interfacesOf o ps)]

theorem writeTarget_eq (o : FileOptions) (spec : TypeSpec) (ps : List Participant)
    (target : String) (w : Writer) :
    writeTarget o spec ps target w =
      { w.put (linesText w.indent w.level (targetLines o spec ps target) ++
          openLine w.indent w.level) with level := w.level + 1 } := by
  have hlines : writeTarget o spec ps target w =
      (w.lines (targetLines o spec ps target)).openBlock := by
    rw [writeTarget, targetLines]
    simp only [Writer.lines_append]
    rfl
  rw [hlines, Writer.lines_eq_put, Writer.openBlock_eq]
  simp only [Writer.put, String.append_assoc]

/-- **Above the body** all declarations are open, each one level below the one
around it. -/
theorem writeHead_eq (f : FileEmitter) (spec : TypeSpec) (ps : List Participant)
    (outer inner : List String) (target : String) (containing : List String) :
    f.writeHead spec ps outer inner target containing =
      let o := f.settings.file
      let i := f.settings.indent
      let level := baseLevel o spec.ns + containing.length
      ⟨(f.writeTop spec.ns outer inner).text ++
          (openings i (baseLevel o spec.ns) containing.reverse ++
            (linesText i level (targetLines o spec ps target) ++ openLine i level)),
        level + 1, i⟩ := by
  change writeTarget f.settings.file spec ps target
    (openContaining containing (f.writeTop spec.ns outer inner)) = _
  rw [writeTop_eq, openContaining_eq, writeTarget_eq]
  simp only [Writer.put, String.append_assoc]

/-! ### The body -/

/-- **The bodies only add text**, when each participant works by operations and
keeps the level. This is proved along the loop: going back after an empty piece
leaves text and level as they were. -/
theorem moreText_writeBodies {spacing : Nat} {started : Bool} {ps : List Participant}
    {w w' : Writer} (hops : ∀ p ∈ ps, p.emitter.WorksByOperations)
    (hlevel : ∀ p ∈ ps, p.emitter.KeepsLevel) (h : writeBodies spacing started ps w = .ok w') :
    w.MoreText w' := by
  induction ps generalizing started w with
  | nil =>
    cases h
    exact Writer.MoreText.refl _
  | cons p ps ih =>
    rw [List.forall_mem_cons] at hops hlevel
    rw [writeBodies] at h
    obtain ⟨written, hwritten, hrest⟩ := Outcome.bind_eq_ok_iff.mp h
    -- The empty lines before the piece are text as well.
    have hspaced : w.MoreText (if started then w.blankLines spacing else w) := by
      split
      · exact Writer.moreText_blankLines w spacing
      · exact Writer.MoreText.refl w
    have hpiece : w.MoreText written := hspaced.trans (Writer.moreText_of_extends
      (hops.1 _ _ _ hwritten).grows (hlevel.1 _ _ _ hwritten))
    by_cases hsilent : written.size = (if started then w.blankLines spacing else w).size
    · have hback : written.rollback w = w := by
        obtain ⟨s, rfl⟩ := hpiece
        rfl
      rw [if_pos hsilent, hback] at hrest
      exact ih hops.2 hlevel.2 hrest
    · rw [if_neg hsilent] at hrest
      exact hpiece.trans (ih hops.2 hlevel.2 hrest)

/-! ### The whole file -/

/-- The target of a file at a level: its lines, and the bodies between its
braces. -/
def targetBlock (f : FileEmitter) (spec : TypeSpec) (ps : List Participant) (target bodies : String)
    (level : Nat) : String :=
  let i := f.settings.indent
  block i level (linesText i level (targetLines f.settings.file spec ps target)) bodies

/-- **Closing all blocks nests them.** A body that only adds text to what is
above it ends in declarations that stand in each other. -/
theorem text_closeAll (f : FileEmitter) (spec : TypeSpec) (ps : List Participant)
    (outer inner : List String) (target : String) (containing : List String) (bodies : String) :
    ((f.writeHead spec ps outer inner target containing).put bodies).closeAll.text =
      (f.writeTop spec.ns outer inner).text ++
        (nested f.settings.indent (f.targetBlock spec ps target bodies)
            (baseLevel f.settings.file spec.ns) containing.reverse ++
          closeLines f.settings.indent (baseLevel f.settings.file spec.ns)) := by
  rw [← openings_append_closeLines, Writer.closeAll_eq, writeHead_eq]
  simp only [Writer.put, closeLines, targetBlock, block, List.length_reverse, String.append_assoc]

/-- **A generated file is nested.** Below the usings and the start of
the namespace there are the declarations around the target, the outermost first
and at the base level, each of them a block with the next one in it, one level
deeper; the innermost block is the target, and the text of the bodies is between
its braces. Each block ends in a brace at its own level with a line feed behind
it, but for the last one, which ends the file. -/
theorem generate_nested {f : FileEmitter} {spec : TypeSpec} {siblings : Siblings}
    {target : String} {containing : List String} {file : SourceFile}
    (hspec : spec.declarations = target :: containing)
    (hops : ∀ slot ∈ f.slots, slot.emitter.WorksByOperations)
    (hlevel : ∀ slot ∈ f.slots, slot.emitter.KeepsLevel)
    (h : f.generate spec siblings = .ok file) :
    ∃ ps outer inner bodies,
      f.participants spec siblings = .ok ps ∧
      Using.block (f.settings.file.outerUsings ++ contributions Emitter.outerUsings ps) =
        .ok outer ∧
      innerUsings f.settings.file spec ps = .ok inner ∧
      (f.writeHead spec ps outer inner target containing).level =
        baseLevel f.settings.file spec.ns + containing.length + 1 ∧
      f.writeBody ps (f.writeHead spec ps outer inner target containing) =
        .ok ((f.writeHead spec ps outer inner target containing).put bodies) ∧
      file.content = (f.writeTop spec.ns outer inner).text ++
        (nested f.settings.indent (f.targetBlock spec ps target bodies)
            (baseLevel f.settings.file spec.ns) containing.reverse ++
          closeLines f.settings.indent (baseLevel f.settings.file spec.ns)) ∧
      ∃ s, file.content = s ++ "\x7d" := by
  rw [generate, hspec] at h
  obtain ⟨ps, hps, h⟩ := Outcome.bind_eq_ok_iff.mp h
  obtain ⟨outer, houter, h⟩ := Outcome.bind_eq_ok_iff.mp h
  obtain ⟨inner, hinner, h⟩ := Outcome.bind_eq_ok_iff.mp h
  obtain ⟨w, hw, ⟨⟩⟩ := Outcome.bind_eq_ok_iff.mp h
  -- A participant comes from a slot, so it keeps what the emitters there promise.
  have hps_ops : ∀ p ∈ ps, p.emitter.WorksByOperations := fun p hp => by
    obtain ⟨slot, hslot, o, -, rfl, -⟩ := (mem_participants_iff hps).mp hp
    exact hops slot hslot
  have hps_level : ∀ p ∈ ps, p.emitter.KeepsLevel := fun p hp => by
    obtain ⟨slot, hslot, o, -, rfl, -⟩ := (mem_participants_iff hps).mp hp
    exact hlevel slot hslot
  obtain ⟨bodies, rfl⟩ := moreText_writeBodies hps_ops hps_level hw
  have hcontent := f.text_closeAll spec ps outer inner target containing bodies
  obtain ⟨s, hs⟩ := nested_eq_append_brace f.settings.indent
    (f.targetBlock spec ps target bodies) (baseLevel f.settings.file spec.ns) containing.reverse
    fun level => ⟨_, _, rfl⟩
  refine ⟨ps, outer, inner, bodies, hps, houter, hinner, ?_, hw, hcontent,
    (f.writeTop spec.ns outer inner).text ++ s, ?_⟩
  · rw [writeHead_eq]
  · rw [String.append_assoc, ← hs]
    exact hcontent

/-- A class in two others, in a block for its namespace, with a line in its
body. -/
theorem generate_nested_two_around :
    ∃ file ps top bodies,
      FileEmitter.generate
        { slots := [⟨(Builtin.snippet { name := "raw", text := "int x;" }).emitter, some {}⟩] }
        { ns := some "Shop", declarations := ["class C", "class B", "class A"],
          target := .ref (.ofName "Shop.C" .classType) } .empty = .ok file ∧
      file.content = top ++ (nested .spaces (targetBlock {}
          { ns := some "Shop", declarations := ["class C", "class B", "class A"],
            target := .ref (.ofName "Shop.C" .classType) } ps "class C" bodies) 1
          ["class A", "class B"] ++ closeLines .spaces 1) ∧
      (∃ s, file.content = s ++ "\x7d") ∧
      file.content = "// <auto-generated/>\n\n#nullable enable annotations\n" ++
        "#nullable disable warnings\n\nnamespace Shop\n\x7b\n    class A\n    \x7b\n" ++
        "        class B\n        \x7b\n            class C\n            \x7b\n" ++
        "                int x;\n            \x7d\n        \x7d\n    \x7d\n\x7d" := by
  let raw : Builtin := .snippet { name := "raw", text := "int x;" }
  have hfile : FileEmitter.generate { slots := [⟨raw.emitter, some {}⟩] }
      { ns := some "Shop", declarations := ["class C", "class B", "class A"],
        target := .ref (.ofName "Shop.C" .classType) } .empty = .ok ⟨"C.g.cs",
      "// <auto-generated/>\n\n#nullable enable annotations\n" ++
        "#nullable disable warnings\n\nnamespace Shop\n\x7b\n    class A\n    \x7b\n" ++
        "        class B\n        \x7b\n            class C\n            \x7b\n" ++
        "                int x;\n            \x7d\n        \x7d\n    \x7d\n\x7d"⟩ := by
    decide +kernel
  have hslots : ∀ slot ∈ [(⟨raw.emitter, some {}⟩ : Slot)],
      slot.emitter.WorksByOperations ∧ slot.emitter.KeepsLevel := by
    intro slot hslot
    rw [List.mem_singleton.mp hslot]
    exact ⟨raw.worksByOperations, raw.keepsLevel⟩
  obtain ⟨ps, outer, inner, bodies, -, -, -, -, -, hcontent, hend⟩ := generate_nested rfl
    (fun slot hslot => (hslots slot hslot).1) (fun slot hslot => (hslots slot hslot).2) hfile
  exact ⟨_, ps, _, bodies, hfile, hcontent, hend, rfl⟩

end FileEmitter

end SharpSource
