import SharpSource.Proofs.Agreement
import SharpSource.Proofs.Shift

/-!
# Bodies at two levels

The bodies of a file stand one level deeper when the namespace is a block, and
then they are the same but for the indentation. For one built-in emitter this
is a matter of what its piece is made of (`Builtin.related_piece`). For all of
them the two runs are followed in step (`Bodies.related_after`): they end with
the same failure, or with texts of which the second is one level deeper.

The emitters of the two runs do not see the very same options, as the form of
the namespace is one of them. They make nothing of it; all that a built-in
emitter asks of its options is whether absent values are marked
(`Builtin.agree_options`).
-/

namespace SharpSource

open Layout
open Outcome (Related)

/-! ### Pieces -/

section

variable {i : Indent} (hi : i.char ≠ '\n')
include hi

theorem Member.related_text (m : Member) (level : Nat) :
    Related (Indented i.unit) (m.text i (level + 1)) (m.text i (level + 1 + 1)) :=
  (Related.of_eq (x := m.declaration) rfl).map fun declared declared' h => by
    rw [h]
    exact indented_linesText_succ hi _ level

/-- A block inside of others, of one line and the lines of its body. -/
theorem Layout.indented_lineBlock (level : Nat) (head : String) (ls : List String) :
    Indented i.unit
      (block i (level + 1) (Writer.lineText i (level + 1) head) (linesText i (level + 1 + 1) ls))
      (block i (level + 1 + 1) (Writer.lineText i (level + 1 + 1) head)
        (linesText i (level + 1 + 1 + 1) ls)) := by
  have hblock := indented_block hi (level + 1) (indented_lineText_succ hi head level)
    (indented_linesText_succ hi ls (level + 1))
  rwa [trail, String.append_empty] at hblock

theorem Emitter.indented_equatablePiece (c : Context) (d : TypeDesc) (level : Nat) :
    Indented i.unit (equatablePiece c d (level + 1) i) (equatablePiece c d (level + 1 + 1) i) := by
  have hline := indented_lineText_succ hi (objectEqualsLine c d) level
  exact ((((indented_lineBlock hi level _ _).append .emptyLine).append hline).append
    .emptyLine).append (indented_lineBlock hi level _ _)

theorem Snippet.indented_piece (s : Snippet) (level : Nat) :
    Indented i.unit (s.piece (level + 1) i) (s.piece (level + 1 + 1) i) := by
  rw [piece, piece]
  split
  · exact .empty
  · exact indented_lineText_succ hi _ level

/-- **The piece of a built-in emitter at two levels**: both pieces fail in the
same way, or the second is one level deeper than the first. -/
theorem Builtin.related_piece (b : Builtin) (c : Context) (level : Nat) :
    Related (Indented i.unit) (b.piece c (level + 1) i) (b.piece c (level + 1 + 1) i) := by
  cases b with
  | properties =>
    have hmembers : List.Forall₂ (· = ·) c.spec.members c.spec.members :=
      List.forall₂_same.mpr fun m _ => rfl
    refine Related.map (Related.mapM (S := Indented i.unit) hmembers fun m m' h => ?_)
      fun _ _ => Indented.join
    subst h
    exact m.related_text hi level
  | equatable =>
    refine .ok ?_
    cases Emitter.equatableTarget? c.spec with
    | none => exact .empty
    | some d => exact Emitter.indented_equatablePiece hi c d level
  | snippet s => exact .ok (s.indented_piece hi level)

end

/-! ### Participants -/

theorem Emitter.equatablePiece_options {o o' : FileOptions}
    (h : o.nullableAnnotations = o'.nullableAnnotations) (spec : TypeSpec) (siblings : Siblings)
    (d : TypeDesc) (level : Nat) (i : Indent) :
    equatablePiece ⟨spec, o, siblings⟩ d level i =
      equatablePiece ⟨spec, o', siblings⟩ d level i := by
  have hmark : absentMark ⟨spec, o, siblings⟩ = absentMark ⟨spec, o', siblings⟩ := by
    unfold absentMark
    rw [h]
  have hequals : equalsLine ⟨spec, o, siblings⟩ d = equalsLine ⟨spec, o', siblings⟩ d := by
    unfold equalsLine
    rw [hmark]
  have hobject : objectEqualsLine ⟨spec, o, siblings⟩ d =
      objectEqualsLine ⟨spec, o', siblings⟩ d := by
    unfold objectEqualsLine
    rw [hmark]
  -- The bodies of the blocks depend on the members alone.
  have hbody : equalsBody i ⟨spec, o, siblings⟩ d = equalsBody i ⟨spec, o', siblings⟩ d := rfl
  have hhash : hashBody ⟨spec, o, siblings⟩ = hashBody ⟨spec, o', siblings⟩ := rfl
  rw [equatablePiece, equatablePiece, hequals, hobject, hbody, hhash]

theorem Builtin.piece_options {o o' : FileOptions}
    (h : o.nullableAnnotations = o'.nullableAnnotations) (b : Builtin) (spec : TypeSpec)
    (siblings : Siblings) (level : Nat) (i : Indent) :
    b.piece ⟨spec, o, siblings⟩ level i = b.piece ⟨spec, o', siblings⟩ level i := by
  cases b with
  | properties => rfl
  | equatable =>
    rw [piece, piece]
    cases Emitter.equatableTarget? spec with
    | none => rfl
    | some d => exact congrArg Except.ok (Emitter.equatablePiece_options h spec siblings d level i)
  | snippet s => rfl

/-- **A built-in emitter agrees** under options that mark absent values
alike. -/
theorem Builtin.agree_options {o o' : FileOptions}
    (h : o.nullableAnnotations = o'.nullableAnnotations) (b : Builtin) (spec : TypeSpec)
    (siblings : Siblings) : b.emitter.Agree ⟨spec, o, siblings⟩ ⟨spec, o', siblings⟩ := by
  constructor
  case write =>
    intro w
    rw [Builtin.write_eq, Builtin.write_eq, Builtin.piece_options h]
  all_goals cases b <;> rfl

/-- **The same participant in two runs**: one of some built-in emitters, for one
target and under options that mark absent values alike. -/
inductive Participant.Alike (bs : List Builtin) (spec : TypeSpec) (siblings : Siblings) :
    Participant → Participant → Prop
  | intro (b : Builtin) (hb : b ∈ bs) {o o' : FileOptions}
      (h : o.nullableAnnotations = o'.nullableAnnotations) :
      Alike bs spec siblings ⟨b.emitter, ⟨spec, o, siblings⟩⟩ ⟨b.emitter, ⟨spec, o', siblings⟩⟩

section

variable {bs : List Builtin} {spec : TypeSpec} {siblings : Siblings} {ps ps' : List Participant}

open FileEmitter (contributions)

/-- Participants in pairs that contribute the same of one sort. -/
theorem FileEmitter.contributions_eq {R : Participant → Participant → Prop}
    (h : List.Forall₂ R ps ps') (part : Emitter → Context → List String)
    (hpart : ∀ p p', R p p' → part p.emitter p.context = part p'.emitter p'.context) :
    contributions part ps = contributions part ps' := by
  induction h with
  | nil => rfl
  | cons hp _ ih =>
    rw [contributions, contributions, List.flatMap_cons, List.flatMap_cons, hpart _ _ hp]
    exact congrArg _ ih

theorem FileEmitter.contributions_alike
    (h : List.Forall₂ (Participant.Alike bs spec siblings) ps ps')
    {part : Emitter → Context → List String}
    (hpart : ∀ {e c c'}, Emitter.Agree e c c' → part e c = part e c') :
    contributions part ps = contributions part ps' := by
  refine contributions_eq h part ?_
  rintro _ _ ⟨b, -, ho⟩
  exact hpart (b.agree_options ho spec siblings)

/-- What is contributed comes from one of the emitters. -/
theorem FileEmitter.exists_of_mem_contributions
    (h : List.Forall₂ (Participant.Alike bs spec siblings) ps ps')
    {part : Emitter → Context → List String} {s : String} (hs : s ∈ contributions part ps) :
    ∃ b ∈ bs, ∃ o, s ∈ part b.emitter ⟨spec, o, siblings⟩ := by
  induction h with
  | nil => cases hs
  | cons hp _ ih =>
    obtain ⟨b, hb, -⟩ := hp
    rcases List.mem_append.mp hs with hs | hs
    · exact ⟨b, hb, _, hs⟩
    · exact ih hs

/-! ### The run -/

/-- **Two runs in step.** Participants that come in pairs put pieces that are in
some relation, or fail alike, one after the other. When the relation is kept by
the empty lines between pieces, the two runs fail in the same way, or both end,
with texts that are in the relation. -/
theorem Bodies.related_after_of {R : String → String → Prop} {n : Nat} {w w' : Writer}
    (hR : ∀ {ss ss' : List String}, List.Forall₂ R ss ss' → R (separated n ss) (separated n ss'))
    (h : List.Forall₂ (fun p p' => ∃ x x', Related R x x' ∧
      (∀ s, p.emitter.write p.context (w.put s) = x.map (w.put s).put) ∧
      ∀ s, p'.emitter.write p'.context (w'.put s) = x'.map (w'.put s).put) ps ps')
    {pieces pieces' : List String} (hpieces : List.Forall₂ R pieces pieces') :
    Related (fun v v' => ∃ s s', R s s' ∧ v = w.put s ∧ v' = w'.put s')
      (after n w pieces ps) (after n w' pieces' ps') := by
  induction h generalizing pieces pieces' with
  | nil => exact .ok ⟨_, _, hR hpieces, rfl, rfl⟩
  | cons hp _ ih =>
    obtain ⟨x, x', hpiece, hwrite, hwrite'⟩ := hp
    replace hwrite := hwrite (lead n pieces)
    replace hwrite' := hwrite' (lead n pieces')
    cases hpiece with
    | error e =>
      rw [after_cons_error hwrite, after_cons_error hwrite']
      exact .error e
    | ok hst =>
      -- One more piece on both sides, and the rest of the runs starts from there.
      rw [after_cons hwrite, after_cons hwrite']
      exact ih (List.rel_append hpieces (.cons hst .nil))

/-- **Bodies at two levels.** Two runs of the same participants at neighbouring
levels, from states whose pieces are one level apart, fail in the same way, or
both end and the bodies of the second are one level deeper. -/
theorem Bodies.related_after {i : Indent} (hi : i.char ≠ '\n') (n level : Nat)
    (h : List.Forall₂ (Participant.Alike bs spec siblings) ps ps') {w w' : Writer}
    (hw : w.level = level + 1 ∧ w.indent = i) (hw' : w'.level = level + 1 + 1 ∧ w'.indent = i)
    {pieces pieces' : List String} (hpieces : List.Forall₂ (Indented i.unit) pieces pieces') :
    Related (fun v v' => ∃ s s', Indented i.unit s s' ∧ v = w.put s ∧ v' = w'.put s')
      (after n w pieces ps) (after n w' pieces' ps') := by
  refine related_after_of (Indented.separated n) (h.imp ?_) hpieces
  rintro _ _ @⟨b, -, o, o', ho⟩
  refine ⟨_, _, b.related_piece hi ⟨spec, o, siblings⟩ level, fun s => ?_, fun s => ?_⟩
  · rw [b.write_eq, Writer.level_put, Writer.indent_put, hw.1, hw.2]
  · rw [b.write_eq, Writer.level_put, Writer.indent_put, hw'.1, hw'.2, ← b.piece_options ho]

end

/-! ### Two generations -/

namespace FileEmitter

variable {f f' : FileEmitter} {spec spec' : TypeSpec} {siblings siblings' : Siblings}
  {R : Participant → Participant → Prop} {B : String → String → Prop}

/-- **Two files stage by stage**, for targets that are declared in the same
types. When the participants of two runs come in pairs that ask for the same
directives, and the bodies come to texts in some relation, the two runs fail in
the same way, or each comes to a file: what is above its bodies, with the text
of the bodies behind it. -/
theorem related_generate_of_declarations {target target' : String} {containing : List String}
    (hdecl : spec.declarations = target :: containing)
    (hdecl' : spec'.declarations = target' :: containing)
    (hparts : Related (List.Forall₂ R) (f.participants spec siblings)
      (f'.participants spec' siblings'))
    (houter : ∀ ps ps', List.Forall₂ R ps ps' →
      Using.block (f.settings.file.outerUsings ++ contributions Emitter.outerUsings ps) =
        Using.block (f'.settings.file.outerUsings ++ contributions Emitter.outerUsings ps'))
    (hinner : ∀ ps ps', List.Forall₂ R ps ps' →
      innerUsings f.settings.file spec ps = innerUsings f'.settings.file spec' ps')
    (hbody : ∀ ps ps' outer inner, List.Forall₂ R ps ps' →
      Related (fun v v' => ∃ s s', B s s' ∧
          v = (f.writeHead spec ps outer inner target containing).put s ∧
          v' = (f'.writeHead spec' ps' outer inner target' containing).put s')
        (f.writeBody ps (f.writeHead spec ps outer inner target containing))
        (f'.writeBody ps' (f'.writeHead spec' ps' outer inner target' containing))) :
    Related (fun file file' => ∃ ps ps' outer inner s s',
        f.participants spec siblings = .ok ps ∧ List.Forall₂ R ps ps' ∧
        Using.block (f.settings.file.outerUsings ++ contributions Emitter.outerUsings ps) =
          .ok outer ∧
        innerUsings f.settings.file spec ps = .ok inner ∧ B s s' ∧
        file = ⟨f.nameOf spec,
          ((f.writeHead spec ps outer inner target containing).put s).closeAll.text⟩ ∧
        file' = ⟨f'.nameOf spec',
          ((f'.writeHead spec' ps' outer inner target' containing).put s').closeAll.text⟩)
      (f.generate spec siblings) (f'.generate spec' siblings') := by
  rw [generate, generate, hdecl, hdecl']
  refine hparts.left.bind ?_
  rintro ps ps' ⟨hpairs, hps⟩
  refine (Related.of_eq (houter ps ps' hpairs)).left.bind ?_
  rintro outer _ ⟨rfl, houter⟩
  refine (Related.of_eq (hinner ps ps' hpairs)).left.bind ?_
  rintro inner _ ⟨rfl, hinner⟩
  refine (hbody ps ps' outer inner hpairs).bind ?_
  rintro _ _ ⟨s, s', hs, rfl, rfl⟩
  exact .ok ⟨ps, ps', outer, inner, s, s', hps, hpairs, houter, hinner, hs, rfl, rfl⟩

/-- **Two files stage by stage**, for targets with the same declarations. -/
theorem related_generate_of (hdecl : spec.declarations = spec'.declarations)
    (htarget : spec.targetName = spec'.targetName)
    (hparts : Related (List.Forall₂ R) (f.participants spec siblings)
      (f'.participants spec' siblings'))
    (houter : ∀ ps ps', List.Forall₂ R ps ps' →
      Using.block (f.settings.file.outerUsings ++ contributions Emitter.outerUsings ps) =
        Using.block (f'.settings.file.outerUsings ++ contributions Emitter.outerUsings ps'))
    (hinner : ∀ ps ps', List.Forall₂ R ps ps' →
      innerUsings f.settings.file spec ps = innerUsings f'.settings.file spec' ps')
    (hbody : ∀ ps ps' outer inner target containing, List.Forall₂ R ps ps' →
      Related (fun v v' => ∃ s s', B s s' ∧
          v = (f.writeHead spec ps outer inner target containing).put s ∧
          v' = (f'.writeHead spec' ps' outer inner target containing).put s')
        (f.writeBody ps (f.writeHead spec ps outer inner target containing))
        (f'.writeBody ps' (f'.writeHead spec' ps' outer inner target containing))) :
    Related (fun file file' => ∃ target containing ps ps' outer inner s s',
        spec.declarations = target :: containing ∧ f.participants spec siblings = .ok ps ∧
        List.Forall₂ R ps ps' ∧
        Using.block (f.settings.file.outerUsings ++ contributions Emitter.outerUsings ps) =
          .ok outer ∧
        innerUsings f.settings.file spec ps = .ok inner ∧ B s s' ∧
        file = ⟨f.nameOf spec,
          ((f.writeHead spec ps outer inner target containing).put s).closeAll.text⟩ ∧
        file' = ⟨f'.nameOf spec',
          ((f'.writeHead spec' ps' outer inner target containing).put s').closeAll.text⟩)
      (f.generate spec siblings) (f'.generate spec' siblings') := by
  cases hspec : spec.declarations with
  | nil =>
    -- The failure mentions the target, so its name counts even here.
    rw [generate, generate, ← hdecl, hspec, htarget]
    exact .error _
  | cons target containing =>
    refine (related_generate_of_declarations hspec (hdecl ▸ hspec) hparts houter hinner
      fun ps ps' outer inner => hbody ps ps' outer inner target containing).imp ?_
    rintro file file' ⟨ps, ps', outer, inner, s, s', h⟩
    exact ⟨target, containing, ps, ps', outer, inner, s, s', rfl, h⟩

end FileEmitter

end SharpSource
