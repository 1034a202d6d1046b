import SharpSource.Proofs.Participation

/-!
# Targets that emitters cannot tell apart

A file depends on its target through few things: the namespace, the
declarations, the attributes and the name of the target, and through what the
emitters make of the rest. An emitter **agrees** on two contexts when it
answers the same to every question about them (`Emitter.Agree`). Where all
emitters of a file agree on two targets, the two have the same file, or fail in
the same way (`FileEmitter.generate_congr`).
-/

namespace SharpSource

/-- **An emitter agrees on two contexts** when it takes part in both or in
neither, contributes the same and writes the same. -/
structure Emitter.Agree (e : Emitter) (c c' : Context) : Prop where
  accepts : e.accepts c = e.accepts c'
  outerUsings : e.outerUsings c = e.outerUsings c'
  innerUsings : e.innerUsings c = e.innerUsings c'
  attributes : e.attributes c = e.attributes c'
  interfaces : e.interfaces c = e.interfaces c'
  write : ∀ w, e.write c w = e.write c' w

/-- A participant in the file of another target. -/
def Participant.moved (spec : TypeSpec) (siblings : Siblings) (p : Participant) : Participant :=
  ⟨p.emitter, { p.context with spec, siblings }⟩

namespace FileEmitter

variable {f : FileEmitter} {spec spec' : TypeSpec} {siblings siblings' : Siblings}

/-! ### Participants -/

theorem participant_moved (slot : Slot) : f.participant spec' siblings' slot =
    (f.participant spec siblings slot).map (Participant.moved spec' siblings') := by
  rcases slot with ⟨e, options⟩
  cases options with
  | some o => rfl
  | none =>
    rw [participant, participant]
    cases f.settings.file.shareOptions <;> rfl

/-- **The same emitters take part** for two targets on which all emitters
agree. -/
theorem participants_moved
    (h : ∀ slot ∈ f.slots, ∀ o, slot.emitter.Agree ⟨spec, o, siblings⟩ ⟨spec', o, siblings'⟩) :
    f.participants spec' siblings' =
      (f.participants spec siblings).map (List.map (Participant.moved spec' siblings')) := by
  have hall : f.slots.mapM (f.participant spec' siblings') =
      (f.slots.mapM (f.participant spec siblings)).map
        (List.map (Participant.moved spec' siblings')) :=
    Outcome.mapM_congr_map fun slot _ => participant_moved slot
  rw [participants, participants, hall]
  cases hps : f.slots.mapM (f.participant spec siblings) with
  | error e => rfl
  | ok all =>
    change Except.ok _ = Except.ok _
    -- Both lists are filtered by the same answers, before or after the move.
    rw [List.filter_map]
    congr 2
    refine List.filter_congr fun p hp => ?_
    obtain ⟨slot, hslot, hslotp⟩ := Outcome.exists_of_mem_results hps hp
    obtain ⟨o, -, rfl⟩ := participant_eq_ok_iff.mp hslotp
    exact (h slot hslot o).accepts.symm

/-- Each participant agrees on the two targets that the emitter in its slot
agrees on. -/
theorem agree_of_mem {ps : List Participant}
    (h : ∀ slot ∈ f.slots, ∀ o, slot.emitter.Agree ⟨spec, o, siblings⟩ ⟨spec', o, siblings'⟩)
    (hps : f.participants spec siblings = .ok ps) :
    ∀ p ∈ ps, p.emitter.Agree p.context (p.moved spec' siblings').context :=
  forall_participants (P := fun e c => e.Agree c ⟨spec', c.options, siblings'⟩) hps h

/-! ### What they do -/

variable {ps : List Participant}

theorem contributions_moved (part : Emitter → Context → List String)
    (h : ∀ p ∈ ps, part p.emitter p.context = part p.emitter (p.moved spec' siblings').context) :
    contributions part (ps.map (Participant.moved spec' siblings')) = contributions part ps := by
  rw [contributions, contributions, List.flatMap_map]
  exact (List.flatMap_congr fun p hp => h p hp).symm

theorem writeBodies_moved
    (h : ∀ p ∈ ps, p.emitter.Agree p.context (p.moved spec' siblings').context)
    (spacing : Nat) (started : Bool) (w : Writer) :
    writeBodies spacing started (ps.map (Participant.moved spec' siblings')) w =
      writeBodies spacing started ps w := by
  induction ps generalizing started w with
  | nil => rfl
  | cons p ps ih =>
    rw [List.forall_mem_cons] at h
    rw [List.map_cons, writeBodies, writeBodies]
    simp only [ih h.2]
    rw [h.1.write]
    rfl

/-! ### The file -/

/-- The text above the body depends on nothing that the two targets do not
share. -/
theorem writeHead_moved (hns : spec.ns = spec'.ns)
    (hattributes : spec.attributes = spec'.attributes)
    (h : ∀ p ∈ ps, p.emitter.Agree p.context (p.moved spec' siblings').context)
    (outer inner : List String) (target : String) (containing : List String) :
    f.writeHead spec' (ps.map (Participant.moved spec' siblings')) outer inner target containing =
      f.writeHead spec ps outer inner target containing := by
  simp only [writeHead, writeTarget, attributesOf, interfacesOf, hns, hattributes,
    contributions_moved Emitter.attributes fun p hp => (h p hp).attributes,
    contributions_moved Emitter.interfaces fun p hp => (h p hp).interfaces]

theorem innerUsings_moved (hns : spec.ns = spec'.ns)
    (h : ∀ p ∈ ps, p.emitter.Agree p.context (p.moved spec' siblings').context)
    (o : FileOptions) :
    innerUsings o spec' (ps.map (Participant.moved spec' siblings')) = innerUsings o spec ps := by
  rw [innerUsings, innerUsings, hns,
    contributions_moved Emitter.innerUsings fun p hp => (h p hp).innerUsings]

/-- **One file for two targets**: where all emitters agree, and the targets have
the same namespace, declarations, attributes and names, generation gives the
same answer for both, be it a file or a failure. -/
theorem generate_congr (hns : spec.ns = spec'.ns)
    (hdeclarations : spec.declarations = spec'.declarations)
    (hattributes : spec.attributes = spec'.attributes)
    (htarget : spec.targetName = spec'.targetName) (hname : f.nameOf spec = f.nameOf spec')
    (h : ∀ slot ∈ f.slots, ∀ o, slot.emitter.Agree ⟨spec, o, siblings⟩ ⟨spec', o, siblings'⟩) :
    f.generate spec siblings = f.generate spec' siblings' := by
  rw [generate, generate, ← hdeclarations]
  cases spec.declarations with
  | nil =>
    -- The failure mentions the target, so the name counts even here.
    rw [htarget]
  | cons target containing =>
    simp only [participants_moved h]
    cases hps : f.participants spec siblings with
    | error e => rfl
    | ok ps =>
      have hagree := agree_of_mem h hps
      simp only [Except.map, Outcome.ok_bind, innerUsings_moved hns hagree,
        contributions_moved Emitter.outerUsings fun p hp => (hagree p hp).outerUsings,
        writeHead_moved hns hattributes hagree, writeBody, writeBodies_moved hagree, hname]

end FileEmitter

end SharpSource
