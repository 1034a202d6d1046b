import SharpSource.Proofs.Emission
import SharpSource.Proofs.LineEnds
import SharpSource.Proofs.UsingBlocks

/-!
# Global directives among the others

The language wants the global directives of a file above all others. A block of
directives knows nothing of that: its order is by length, and the keyword counts
as much as any other text. So a global directive stands behind a plain one when
it is the shorter of the two, or is as long and appears later, and the block is
in the order of the language exactly when there is no such pair
(`Using.legallyOrdered_iff`).

What stands where in a file is then a matter of the directives that the options
and the emitters bring (`FileEmitter.usings_legallyOrdered_iff`). The block is
in the file below the preamble, each directive on a line of its own, whatever
the emitters write behind it.
-/

namespace SharpSource

open Layout
open Bodies (emptyLines)

/-- Of two elements of a list one stands before the other. -/
theorem pair_sublist_or {α : Type} {l : List α} {a b : α} (ha : a ∈ l) (hb : b ∈ l) (hab : a ≠ b) :
    [a, b].Sublist l ∨ [b, a].Sublist l := by
  obtain ⟨before, behind, rfl⟩ := List.append_of_mem ha
  rcases List.mem_append.mp hb with hb | hb
  · have hpair := (List.singleton_sublist.mpr hb).append
      (List.singleton_sublist.mpr (List.mem_cons_self (a := a) (l := behind)))
    exact Or.inr hpair
  · have hbehind := (List.mem_cons.mp hb).resolve_left hab.symm
    exact Or.inl (((List.singleton_sublist.mpr hbehind).cons_cons a).trans
      (List.sublist_append_right before _))

namespace Using

/-! ### The order of the language -/

/-- **A global directive.** -/
def IsGlobal (d : String) : Prop :=
  "global using ".toList <+: d.toList

/-- **A plain directive**, with the bare keyword in front. -/
def IsPlain (d : String) : Prop :=
  "using ".toList <+: d.toList

instance (d : String) : Decidable (IsGlobal d) :=
  inferInstanceAs (Decidable (_ <+: _))

instance (d : String) : Decidable (IsPlain d) :=
  inferInstanceAs (Decidable (_ <+: _))

/-- **A block in the order of the language**: no global directive stands behind
a plain one. -/
def LegallyOrdered (block : List String) : Prop :=
  block.Pairwise fun a b => ¬(IsPlain a ∧ IsGlobal b)

instance (block : List String) : Decidable (LegallyOrdered block) :=
  inferInstanceAs (Decidable (List.Pairwise _ _))

variable {ds out : List String}

theorem ne_of_isPlain_of_isGlobal {p g : String} (hp : IsPlain p) (hg : IsGlobal g) : p ≠ g := by
  rintro rfl
  obtain ⟨s, hs⟩ := hp
  obtain ⟨t, ht⟩ := hg
  have hhead := congrArg List.head? (hs.trans ht.symm)
  exact absurd hhead (by simp)

/-- **What stands before what in a block** is settled by its order. -/
theorem pair_sublist_iff (hmem : ∀ d, d ∈ out ↔ d ∈ ds) (horder : out.Pairwise (Precedes ds))
    {a b : String} (ha : a ∈ ds) (hb : b ∈ ds) : [a, b].Sublist out ↔ Precedes ds a b := by
  rw [List.pairwise_iff_forall_sublist] at horder
  constructor
  · exact fun h => horder h
  · intro h
    rcases pair_sublist_or ((hmem a).mpr ha) ((hmem b).mpr hb) h.ne with hab | hba
    · exact hab
    · exact absurd (horder hba) h.asymm

/-- **A block is in the order of the language** when every global directive in
it is longer than each plain one, or as long and appears earlier. -/
theorem legallyOrdered_iff (hmem : ∀ d, d ∈ out ↔ d ∈ ds) (horder : out.Pairwise (Precedes ds)) :
    LegallyOrdered out ↔ ∀ p ∈ ds, ∀ g ∈ ds, IsPlain p → IsGlobal g → Precedes ds g p := by
  rw [LegallyOrdered, List.pairwise_iff_forall_sublist]
  constructor
  · intro hlegal p hp g hg hplain hglobal
    rcases precedes_or_precedes hp (ne_of_isPlain_of_isGlobal hplain hglobal) with hpg | hgp
    · exact absurd ⟨hplain, hglobal⟩ (hlegal ((pair_sublist_iff hmem horder hp hg).mpr hpg))
    · exact hgp
  · rintro hall a b hab ⟨hplain, hglobal⟩
    have ha : a ∈ ds := (hmem a).mp (hab.subset (by simp))
    have hb : b ∈ ds := (hmem b).mp (hab.subset (by simp))
    exact (hall a ha b hb hplain hglobal).asymm ((pair_sublist_iff hmem horder ha hb).mp hab)

end Using

namespace FileEmitter

/-! ### The block in a file -/

/-- The bodies take nothing away of what stands above them, whatever they do to
the level. -/
theorem extends_writeBodies {spacing : Nat} {started : Bool} {ps : List Participant} {w w' : Writer}
    (hops : ∀ p ∈ ps, p.emitter.WorksByOperations)
    (h : writeBodies spacing started ps w = .ok w') : w.Extends w' := by
  induction ps generalizing started w with
  | nil =>
    cases h
    exact Writer.Extends.refl _
  | cons p ps ih =>
    rw [List.forall_mem_cons] at hops
    rw [writeBodies] at h
    obtain ⟨written, hwritten, hrest⟩ := Outcome.bind_eq_ok_iff.mp h
    have hspaced : w.Extends (if started then w.blankLines spacing else w) := by
      split
      · exact Writer.extends_put w _ w.level
      · exact Writer.Extends.refl w
    have hpiece : w.Extends written := hspaced.trans (hops.1 _ _ _ hwritten).grows
    by_cases hsilent : written.size = (if started then w.blankLines spacing else w).size
    · -- Going back after an empty piece leaves the text of before, and the same indentation.
      have hback : w.Extends (written.rollback w) := ⟨hpiece.1, "", by simp⟩
      rw [if_pos hsilent] at hrest
      exact hback.trans (ih hops.2 hrest)
    · rw [if_neg hsilent] at hrest
      exact hpiece.trans (ih hops.2 hrest)

/-- **Above the namespace** stand the preamble and the directives, one on each
line. -/
theorem above_eq (settings : Settings) (outer : List String) :
    ∃ spacing, above settings outer =
      (writePreamble settings.file { indent := settings.indent }).text ++
        linesText settings.indent 0 outer ++ spacing := by
  obtain ⟨s, hs⟩ := moreText_writePreamble settings.file { indent := settings.indent }
  rw [above, hs, writeUsings_eq, usingsText]
  by_cases hempty : outer = []
  · subst hempty
    exact ⟨"", by simp [linesText]⟩
  · refine ⟨emptyLines settings.file.sectionSpacing, ?_⟩
    rw [if_neg (by simpa using hempty), Writer.text_put]
    simp only [Writer.put, lineText_intercalate settings.indent 0 hempty, String.append_assoc]

/-- A file starts with what stands above its namespace. -/
theorem above_of_generate {f : FileEmitter} {spec : TypeSpec} {ps : List Participant}
    {outer inner : List String} {target : String} {containing : List String} {w : Writer}
    (hops : ∀ p ∈ ps, p.emitter.WorksByOperations)
    (h : f.writeBody ps (f.writeHead spec ps outer inner target containing) = .ok w) :
    ∃ rest, w.closeAll.text = above f.settings outer ++ rest := by
  obtain ⟨-, closing, hclosing⟩ := (extends_writeBodies hops h).trans w.extends_closeAll
  obtain ⟨s, hs⟩ := writeScope_eq f.settings.file
    (writeUsings f.settings.file outer
      (writePreamble f.settings.file { indent := f.settings.indent }))
    inner spec.ns
  have htop : (f.writeTop spec.ns outer inner).text = above f.settings outer ++ s := by
    rw [writeTop, hs, above]
    rfl
  rw [hclosing, writeHead_eq]
  simp only [htop, String.append_assoc]
  exact ⟨_, rfl⟩

/-- **The order of the usings of a file.** Whenever a file is generated, it has
a block of the directives that the options and the emitters that take part
bring, in this order of their appearance. In the block a global directive stands
behind a plain one exactly when it is the shorter of the two, or is as long and
appears later; and so the block is in the order of the language exactly when
each global directive is longer than each plain one, or as long and appears
earlier. The block is in the file below the preamble, one directive on each
line, if all that emitters do is to write. -/
theorem usings_legallyOrdered_iff {f : FileEmitter} {spec : TypeSpec} {siblings : Siblings}
    {file : SourceFile} (h : f.generate spec siblings = .ok file) :
    ∃ ps ds outer,
      f.participants spec siblings = .ok ps ∧
      List.Forall₂ (fun s d => Using.normalize s = .ok d)
        (f.settings.file.outerUsings ++ contributions Emitter.outerUsings ps) ds ∧
      Using.block (f.settings.file.outerUsings ++ contributions Emitter.outerUsings ps) =
        .ok outer ∧
      (∀ d, d ∈ outer ↔ d ∈ ds) ∧
      (∀ p ∈ ds, ∀ g ∈ ds, Using.IsPlain p → Using.IsGlobal g →
        ([p, g].Sublist outer ↔ g.utf8ByteSize < p.utf8ByteSize ∨
          p.utf8ByteSize = g.utf8ByteSize ∧ ds.idxOf p < ds.idxOf g)) ∧
      (Using.LegallyOrdered outer ↔
        ∀ p ∈ ds, ∀ g ∈ ds, Using.IsPlain p → Using.IsGlobal g → Using.Precedes ds g p) ∧
      ((∀ slot ∈ f.slots, slot.emitter.WorksByOperations) →
        ∃ rest, file.content =
          (writePreamble f.settings.file { indent := f.settings.indent }).text ++
            linesText f.settings.indent 0 outer ++ rest) := by
  obtain ⟨target, containing, ps, outer, inner, w, -, hps, houter, -, hw, rfl⟩ :=
    generate_eq_ok_iff.mp h
  obtain ⟨ds, hds, hmem, horder⟩ := Using.block_eq_ok_iff.mp houter
  refine ⟨ps, ds, outer, hps, hds, houter, hmem, ?_, Using.legallyOrdered_iff hmem horder, ?_⟩
  · exact fun p hp g hg _ _ => Using.pair_sublist_iff hmem horder hp hg
  · intro hops
    have hps_ops : ∀ p ∈ ps, p.emitter.WorksByOperations := fun p hp => by
      obtain ⟨slot, hslot, o, -, rfl, -⟩ := (mem_participants_iff hps).mp hp
      exact hops slot hslot
    obtain ⟨rest, hrest⟩ := above_of_generate hps_ops hw
    obtain ⟨spacing, habove⟩ := above_eq f.settings outer
    exact ⟨spacing ++ rest, by rw [hrest, habove, String.append_assoc]⟩

/-- A global directive of the options, and a shorter plain one that an emitter
needs: the block is in order. -/
theorem usings_legallyOrdered_iff_longer_global :
    let snippet : Builtin := .snippet { name := "raw", text := "", outerUsings := ["System"] }
    let f : FileEmitter :=
      { settings := { file := { outerUsings := ["global using Shop.Data"] } }
        slots := [⟨snippet.emitter, some {}⟩] }
    let spec : TypeSpec :=
      { ns := none, declarations := ["class Order"],
        target := .ref (.ofName "Order" .classType) }
    ∃ file ps outer, f.generate spec .empty = .ok file ∧ f.participants spec .empty = .ok ps ∧
      Using.block (f.settings.file.outerUsings ++ contributions Emitter.outerUsings ps) =
        .ok outer ∧
      outer = ["global using Shop.Data;", "using System;"] ∧ Using.LegallyOrdered outer := by
  intro snippet f spec
  have hdirectives : ["global using Shop.Data", "System"].mapM Using.normalize =
      .ok ["global using Shop.Data;", "using System;"] := by
    decide +kernel
  have hvalue : Using.block ["global using Shop.Data", "System"] =
      .ok ["global using Shop.Data;", "using System;"] :=
    Using.block_of_order hdirectives (by decide) (by decide) (by decide +kernel)
  have htaking : f.participants spec .empty = .ok [⟨snippet.emitter, ⟨spec, {}, .empty⟩⟩] := rfl
  have hbody : (f.writeBody [⟨snippet.emitter, ⟨spec, {}, .empty⟩⟩] (f.writeHead spec
      [⟨snippet.emitter, ⟨spec, {}, .empty⟩⟩] ["global using Shop.Data;", "using System;"] []
      "class Order" [])).map (fun _ => ()) = .ok () := by
    decide +kernel
  obtain ⟨w, hw, -⟩ := Outcome.map_eq_ok_iff.mp hbody
  have hfile := generate_eq_ok_iff.mpr
    ⟨"class Order", [], _, _, _, w, rfl, htaking, hvalue, rfl, hw, rfl⟩
  obtain ⟨ps, ds, outer, hps, hds, houter, -, -, hiff, -⟩ := usings_legallyOrdered_iff hfile
  obtain rfl := Except.ok.inj (hps.symm.trans htaking)
  obtain rfl := Except.ok.inj (houter.symm.trans hvalue)
  obtain rfl := Except.ok.inj ((Outcome.mapM_eq_ok_iff.mpr hds).symm.trans hdirectives)
  exact ⟨_, _, _, hfile, hps, houter, rfl, hiff.mpr (by decide +kernel)⟩

/-- **A global directive behind a plain one.** The options bring a global
directive, and an emitter needs a plain one that is longer. -/
theorem generate_global_behind_plain :
    let snippet : Builtin :=
      .snippet { name := "raw", text := "", outerUsings := ["System.Collections.Generic"] }
    let f : FileEmitter :=
      { settings := { file := { outerUsings := ["global using System"] } }
        slots := [⟨snippet.emitter, some {}⟩] }
    let spec : TypeSpec :=
      { ns := some "Shop", declarations := ["class Order"],
        target := .ref (.ofName "Shop.Order" .classType) }
    ∃ file ps outer, f.generate spec .empty = .ok file ∧ f.participants spec .empty = .ok ps ∧
      Using.block (f.settings.file.outerUsings ++ contributions Emitter.outerUsings ps) =
        .ok outer ∧
      outer = ["using System.Collections.Generic;", "global using System;"] ∧
      ¬Using.LegallyOrdered outer ∧
      file.content = "// <auto-generated/>\n\n#nullable enable annotations\n" ++
        "#nullable disable warnings\n\nusing System.Collections.Generic;\n" ++
        "global using System;\n\nnamespace Shop\n\x7b\n    class Order\n    \x7b\n" ++
        "    \x7d\n\x7d" := by
  intro snippet f spec
  have hdirectives : ["global using System", "System.Collections.Generic"].mapM Using.normalize =
      .ok ["global using System;", "using System.Collections.Generic;"] := by
    decide +kernel
  have hvalue : Using.block ["global using System", "System.Collections.Generic"] =
      .ok ["using System.Collections.Generic;", "global using System;"] :=
    Using.block_of_order hdirectives (by decide) (by decide) (by decide +kernel)
  have htaking : f.participants spec .empty = .ok [⟨snippet.emitter, ⟨spec, {}, .empty⟩⟩] := rfl
  have hinner : innerUsings f.settings.file spec [⟨snippet.emitter, ⟨spec, {}, .empty⟩⟩] =
      .ok [] := by
    decide +kernel
  have hbody : (f.writeBody [⟨snippet.emitter, ⟨spec, {}, .empty⟩⟩] (f.writeHead spec
      [⟨snippet.emitter, ⟨spec, {}, .empty⟩⟩]
      ["using System.Collections.Generic;", "global using System;"] [] "class Order" [])).map
        (fun w => w.closeAll.text) = .ok (
      "// <auto-generated/>\n\n#nullable enable annotations\n" ++
        "#nullable disable warnings\n\nusing System.Collections.Generic;\n" ++
        "global using System;\n\nnamespace Shop\n\x7b\n    class Order\n    \x7b\n" ++
        "    \x7d\n\x7d") := by
    decide +kernel
  obtain ⟨w, hw, htext⟩ := Outcome.map_eq_ok_iff.mp hbody
  have hfile := generate_eq_ok_iff.mpr
    ⟨"class Order", [], _, _, _, w, rfl, htaking, hvalue, hinner, hw, rfl⟩
  exact ⟨_, _, _, hfile, htaking, hvalue, rfl, by decide, htext⟩

end FileEmitter

end SharpSource
