import SharpSource.FileEmitter.InPlace
import SharpSource.Proofs.Emission
import SharpSource.Proofs.Reach

/-!
# Emitters with nothing to say

An emitter is asked five times what it has to say about a target: for the outer
usings, the inner usings, the attributes, the interfaces and the body. One that
declines the target is asked nothing. One that takes part, and has an empty
answer each time (`Emitter.Silent`), stands in all five lists of answers and
must not be seen in any.

In four of them it adds nothing to a concatenation. The body is the one where it
acts: empty lines are written before it is known that nothing will follow them,
and going back to the text from before has to undo exactly these
(`FileEmitter.writeBodies_cons_silent`).

So a slot for such an emitter can be put in **anywhere** among the slots of a
file emitter (`FileEmitter.insertSlot`), and the file is the same, or the
failure is (`FileEmitter.generate_insertSlot`). The one thing it needs is
options, which are asked for before anything else.
-/

namespace SharpSource

/-! ### Silence -/

namespace Emitter

/-- **An emitter is silent about a context** when it contributes nothing to the
lists of a file, and works any writer by operations that succeed, and end with
the same text at the same level. -/
structure Silent (e : Emitter) (c : Context) : Prop where
  outerUsings : e.outerUsings c = []
  innerUsings : e.innerUsings c = []
  attributes : e.attributes c = []
  interfaces : e.interfaces c = []
  write : ∀ w, ∃ w', e.write c w = .ok w' ∧ w.Reaches w' ∧ w'.text = w.text ∧ w'.level = w.level

/-- **An emitter has nothing to say about a context** when it declines it,
whatever it would do otherwise, or is silent about it. -/
def NothingToSay (e : Emitter) (c : Context) : Prop :=
  e.accepts c = false ∨ e.Silent c

/-- No operation changes the indentation, so a silent emitter leaves all of a
writer as it was. -/
theorem Silent.write_eq {e : Emitter} {c : Context} (h : e.Silent c) (w : Writer) :
    e.write c w = .ok w := by
  obtain ⟨w', hwrite, hreaches, htext, hlevel⟩ := h.write w
  obtain ⟨hindent, -⟩ := hreaches.grows
  rcases w with ⟨text, level, indent⟩
  rcases w' with ⟨text', level', indent'⟩
  obtain rfl : text' = text := htext
  obtain rfl : level' = level := hlevel
  obtain rfl : indent' = indent := hindent
  exact hwrite

/-- A blank snippet that needs nothing around it is silent, whatever the
target. -/
theorem silent_snippet {s : Snippet} (htext : Text.trimEnd s.text = "")
    (houter : s.outerUsings = []) (hinner : s.innerUsings = [])
    (hattributes : s.attributes = []) (hinterfaces : s.interfaces = []) (c : Context) :
    (Emitter.snippet s).Silent c where
  outerUsings := houter
  innerUsings := hinner
  attributes := hattributes
  interfaces := hinterfaces
  write := by
    intro w
    have hwrite : s.write w = w := by rw [Snippet.write, htext, if_pos rfl]
    exact ⟨w, congrArg Except.ok hwrite, .refl, rfl, rfl⟩

end Emitter

namespace FileEmitter

/-! ### A silent participant -/

variable {p : Participant} {before behind : List Participant}

/-- What adds nothing to a concatenation is not seen in it. -/
theorem contributions_insert {part : Emitter → Context → List String}
    (h : part p.emitter p.context = []) :
    contributions part (before ++ p :: behind) = contributions part (before ++ behind) := by
  rw [contributions, contributions, List.flatMap_append, List.flatMap_append, List.flatMap_cons, h,
    List.nil_append]

/-- The empty lines in front of a silent participant are taken back, and it does
not count as having started the body. -/
theorem writeBodies_cons_silent (h : p.emitter.Silent p.context) (spacing : Nat) (started : Bool)
    (w : Writer) :
    writeBodies spacing started (p :: behind) w = writeBodies spacing started behind w := by
  rw [writeBodies, h.write_eq, Outcome.ok_bind, if_pos rfl]
  cases started with
  | false => rfl
  | true => rfl

theorem writeBodies_insert (h : p.emitter.Silent p.context) (spacing : Nat) (started : Bool)
    (w : Writer) :
    writeBodies spacing started (before ++ p :: behind) w =
      writeBodies spacing started (before ++ behind) w := by
  induction before generalizing started w with
  | nil => exact writeBodies_cons_silent h spacing started w
  | cons q before ih =>
    rw [List.cons_append, List.cons_append, writeBodies, writeBodies]
    simp only [ih]

/-- **A silent participant is not seen in the file**, wherever it stands among
the others. -/
theorem assemble_insert (f : FileEmitter) (spec : TypeSpec) (target : String)
    (containing : List String) (h : p.emitter.Silent p.context) :
    f.assemble spec target containing (before ++ p :: behind) =
      f.assemble spec target containing (before ++ behind) := by
  have hhead : ∀ outer inner,
      f.writeHead spec (before ++ p :: behind) outer inner target containing =
        f.writeHead spec (before ++ behind) outer inner target containing := by
    intro outer inner
    simp only [writeHead, writeTarget, attributesOf, interfacesOf,
      contributions_insert h.attributes, contributions_insert h.interfaces]
  have hinner : innerUsings f.settings.file spec (before ++ p :: behind) =
      innerUsings f.settings.file spec (before ++ behind) := by
    rw [innerUsings, innerUsings, contributions_insert h.innerUsings]
  simp only [assemble, contributions_insert h.outerUsings, hinner, hhead, writeBody,
    writeBodies_insert h]

/-! ### One more slot -/

/-- The file emitter with one more slot at a place, which is the last one when
there are fewer. -/
def insertSlot (f : FileEmitter) (place : Nat) (slot : Slot) : FileEmitter :=
  { f with slots := f.slots.take place ++ slot :: f.slots.drop place }

variable {f : FileEmitter} {spec : TypeSpec} {siblings : Siblings}

/-- **The participants with one more slot** for which options are settled: they
are the same where its emitter declines, and otherwise it is one more among
them. Who fails for want of options does not change. -/
theorem participants_insertSlot (place : Nat) {slot : Slot} {o : FileOptions}
    (ho : slot.settled? f.settings.file = some o) :
    Outcome.Related (fun ps qs =>
        qs = ps ∨ ∃ before behind, ps = before ++ behind ∧
          qs = before ++ ⟨slot.emitter, ⟨spec, o, siblings⟩⟩ :: behind ∧
          slot.emitter.accepts ⟨spec, o, siblings⟩ = true)
      (f.participants spec siblings) ((f.insertSlot place slot).participants spec siblings) := by
  have hslot : f.participant spec siblings slot = .ok ⟨slot.emitter, ⟨spec, o, siblings⟩⟩ :=
    participant_eq_ok_iff.mpr ⟨o, ho, rfl⟩
  -- Both are consulted in parts, and only the slot in the middle makes a difference.
  have hwithout : f.participants spec siblings = do
      let before ← (f.slots.take place).mapM (f.participant spec siblings)
      let behind ← (f.slots.drop place).mapM (f.participant spec siblings)
      return (before ++ behind).filter fun p => p.emitter.accepts p.context := by
    rw [participants]
    nth_rewrite 1 [← List.take_append_drop place f.slots]
    rw [List.mapM_append]
    simp only [bind_assoc, pure_bind]
  have hwith : (f.insertSlot place slot).participants spec siblings = do
      let before ← (f.slots.take place).mapM (f.participant spec siblings)
      let behind ← (f.slots.drop place).mapM (f.participant spec siblings)
      return (before ++ ⟨slot.emitter, ⟨spec, o, siblings⟩⟩ :: behind).filter fun p =>
        p.emitter.accepts p.context := by
    change (((f.slots.take place ++ slot :: f.slots.drop place).mapM
      (f.participant spec siblings)) >>= fun all => _) = _
    rw [List.mapM_append, List.mapM_cons, hslot]
    simp only [bind_assoc, pure_bind, Outcome.ok_bind]
  rw [hwithout, hwith]
  cases (f.slots.take place).mapM (f.participant spec siblings) with
  | error e => exact .error e
  | ok before =>
    cases (f.slots.drop place).mapM (f.participant spec siblings) with
    | error e => exact .error e
    | ok behind =>
      refine .ok ?_
      rw [List.filter_append, List.filter_append]
      cases haccepts : slot.emitter.accepts ⟨spec, o, siblings⟩ with
      | false => exact Or.inl (by rw [List.filter_cons_of_neg (by simp [haccepts])])
      | true =>
        exact Or.inr ⟨_, _, rfl, by rw [List.filter_cons_of_pos (by simp [haccepts])], rfl⟩

theorem generate_eq_bind {target : String} {containing : List String}
    (h : spec.declarations = target :: containing) :
    f.generate spec siblings =
      f.participants spec siblings >>= f.assemble spec target containing := by
  rw [generate, h]
  rfl

/-- **Emitters with nothing to say are invisible.** A slot with options, whose
emitter declines the target or is silent about it, can be put in at any place of
any file emitter: what is generated is the same file, under the same name, or
the same failure. -/
theorem generate_insertSlot (f : FileEmitter) (place : Nat) (slot : Slot) (spec : TypeSpec)
    (siblings : Siblings) {o : FileOptions} (ho : slot.settled? f.settings.file = some o)
    (h : slot.emitter.NothingToSay ⟨spec, o, siblings⟩) :
    (f.insertSlot place slot).generate spec siblings = f.generate spec siblings := by
  cases hdecl : spec.declarations with
  | nil => rw [generate, generate, hdecl]
  | cons target containing =>
    have hassemble : ∀ ps, (f.insertSlot place slot).assemble spec target containing ps =
        f.assemble spec target containing ps := fun ps => rfl
    rw [generate_eq_bind hdecl, generate_eq_bind hdecl]
    rcases (participants_insertSlot place ho).cases_eq with
      ⟨e, hps, hqs⟩ | ⟨ps, qs, hps, hqs, hrelated⟩
    · rw [hps, hqs]
      rfl
    · rw [hps, hqs, Outcome.ok_bind, Outcome.ok_bind, hassemble]
      rcases hrelated with rfl | ⟨before, behind, rfl, rfl, haccepts⟩
      · rfl
      · rcases h with hdeclines | hsilent
        · rw [haccepts] at hdeclines
          cases hdeclines
        · exact f.assemble_insert spec target containing hsilent

/-- Between two snippets that are kept two empty lines apart stands a third
emitter. One declines all targets, and would fail on any, be it for a blank
directive or in the body. The other is a blank snippet, which the empty lines
are written for and taken back. -/
theorem generate_insertSlot_between :
    let snippet (text : String) : Emitter := .snippet { name := "raw", text }
    let f : FileEmitter :=
      { settings := { file := { emitterSpacing := 2 } }
        slots := [⟨snippet "int a;", some {}⟩, ⟨snippet "int b;", some {}⟩] }
    let spec : TypeSpec :=
      { ns := none, declarations := ["class A"], target := .ref (.ofName "A" .classType) }
    let shy : Emitter :=
      { name := "shy", accepts := fun _ => false, outerUsings := fun _ => [" "]
        write := fun _ _ => .error .noOpenBlock }
    (∃ o, (⟨shy, none⟩ : Slot).settled? f.settings.file = some o ∧
      shy.NothingToSay ⟨spec, o, .empty⟩) ∧
    (∃ o, (⟨snippet "  ", none⟩ : Slot).settled? f.settings.file = some o ∧
      (snippet "  ").NothingToSay ⟨spec, o, .empty⟩) ∧
    (f.insertSlot 1 ⟨shy, none⟩).generate spec .empty = f.generate spec .empty ∧
    (f.insertSlot 1 ⟨snippet "  ", none⟩).generate spec .empty = f.generate spec .empty ∧
    ∃ file, f.generate spec .empty = .ok file := by
  intro snippet f spec shy
  have hshy : (⟨shy, none⟩ : Slot).settled? f.settings.file = some f.settings.file := rfl
  have hblank : (⟨snippet "  ", none⟩ : Slot).settled? f.settings.file = some f.settings.file := rfl
  have hdeclines : shy.NothingToSay ⟨spec, f.settings.file, .empty⟩ := Or.inl rfl
  have hsilent : (snippet "  ").NothingToSay ⟨spec, f.settings.file, .empty⟩ :=
    Or.inr (Emitter.silent_snippet (by decide) rfl rfl rfl rfl _)
  refine ⟨⟨_, hshy, hdeclines⟩, ⟨_, hblank, hsilent⟩, ?_, ?_, ?_⟩
  · exact generate_insertSlot f 1 ⟨shy, none⟩ spec .empty hshy hdeclines
  · exact generate_insertSlot f 1 ⟨snippet "  ", none⟩ spec .empty hblank hsilent
  · have hwrite : ∀ slot ∈ f.slots, ∀ o w,
        ∃ w', slot.emitter.write ⟨spec, o, .empty⟩ w = .ok w' := by
      intro slot hslot o w
      rcases List.mem_pair.mp hslot with rfl | rfl <;> exact ⟨_, rfl⟩
    exact (generate_ok_iff (by decide) hwrite).mpr
      ⟨_, rfl, fun d hd => absurd hd List.not_mem_nil, Or.inl rfl⟩

end FileEmitter

end SharpSource
