import SharpSource.FileEmitter.InPlace
import SharpSource.Proofs.Emission

/-!
# The life of a file emitter

Options are given to an emitter **once**. They come from its registration or,
where they are shared, from the file, and nothing that happens later takes them
away or replaces them: no further registration, no generation, and no failure.

The slots are cells that every generation writes to, so this is an invariant of
all calls in any order. It is `FileEmitter.Settled`: each slot holds the options
that it was registered with, or else those of the file where they are shared. A
generation in place finds nothing to write in such slots, and therefore leaves
the file emitter as it is (`FileEmitter.Settled.generateInPlace_eq`); and a
registration adds one more slot of this kind (`FileEmitter.Settled.after`).

What remains without options is what was registered without any while they are
not shared. The first such emitter is the one that a generation names when it
fails for want of options, before any emitter is asked whether it takes part
(`FileEmitter.generate_eq_missingOptions_iff`).
-/

namespace SharpSource

/-- The slot with the options that its emitter works with. -/
def Slot.settle (file : FileOptions) (s : Slot) : Slot :=
  { s with options := s.settled? file }

namespace Slot

/-- What an emitter works with is settled once and for all. -/
theorem settled?_settle (file : FileOptions) (s : Slot) :
    (s.settle file).settled? file = s.settled? file := by
  rcases s with ⟨e, options⟩
  cases options with
  | some o => rfl
  | none =>
    rw [settle, settled?, settled?]
    cases file.shareOptions <;> rfl

theorem settle_settle (file : FileOptions) (s : Slot) :
    (s.settle file).settle file = s.settle file := by
  rw [settle, settled?_settle]
  rfl

theorem settled?_of_not_shared {file : FileOptions} (h : file.shareOptions = false) (s : Slot) :
    s.settled? file = s.options := by
  rw [settled?, h]
  exact Option.or_none

theorem settled?_eq_none_iff {file : FileOptions} {s : Slot} :
    s.settled? file = none ↔ file.shareOptions = false ∧ s.options = none := by
  rw [settled?, Option.or_eq_none_iff, and_comm]
  cases file.shareOptions <;> simp

end Slot

namespace FileEmitter

variable {f : FileEmitter} {spec : TypeSpec} {siblings : Siblings}

/-! ### Consulting emitters -/

/-- A slot with options, be they its own or those of the file, holds them from
then on. -/
theorem consult_cons_of_some {slot : Slot} {o : FileOptions}
    (h : slot.settled? f.settings.file = some o) (slots : List Slot) :
    f.consult spec siblings (slot :: slots) =
      (⟨slot.emitter, some o⟩ :: (f.consult spec siblings slots).1,
        (f.consult spec siblings slots).2.map fun ps =>
          if slot.emitter.accepts ⟨spec, o, siblings⟩ then
            ⟨slot.emitter, ⟨spec, o, siblings⟩⟩ :: ps
          else ps) := by
  rcases slot with ⟨e, options⟩
  rw [consult]
  cases options with
  | some o' =>
    obtain rfl : o' = o := Option.some.inj h
    cases f.settings.file.shareOptions <;> rfl
  | none =>
    rw [Slot.settled?] at h
    cases hshare : f.settings.file.shareOptions with
    | false =>
      rw [hshare] at h
      cases h
    | true =>
      rw [hshare] at h
      obtain rfl : f.settings.file = o := Option.some.inj h
      rfl

/-- A slot without options ends the consultation, and nothing behind it is
touched. -/
theorem consult_cons_of_none {slot : Slot} (h : slot.settled? f.settings.file = none)
    (slots : List Slot) :
    f.consult spec siblings (slot :: slots) =
      (slot :: slots, .error (.missingOptions slot.emitter.name)) := by
  rcases slot with ⟨e, options⟩
  rw [consult]
  cases options with
  | some o => cases h
  | none =>
    rw [Slot.settled?] at h
    cases hshare : f.settings.file.shareOptions with
    | false => rfl
    | true =>
      rw [hshare] at h
      cases h

/-- **Consulting emitters in place** gives the participants. -/
theorem consult_snd (slots : List Slot) :
    (f.consult spec siblings slots).2 =
      (slots.mapM (f.participant spec siblings)).map
        (List.filter fun p => p.emitter.accepts p.context) := by
  induction slots with
  | nil => rfl
  | cons slot slots ih =>
    rw [List.mapM_cons]
    cases hslot : slot.settled? f.settings.file with
    | none =>
      have hp : f.participant spec siblings slot = .error (.missingOptions slot.emitter.name) :=
        participant_eq_error_iff.mpr ⟨hslot, rfl⟩
      rw [consult_cons_of_none hslot, hp]
      rfl
    | some o =>
      have hp : f.participant spec siblings slot = .ok ⟨slot.emitter, ⟨spec, o, siblings⟩⟩ :=
        participant_eq_ok_iff.mpr ⟨o, hslot, rfl⟩
      rw [consult_cons_of_some hslot, hp, Outcome.ok_bind, ih]
      cases slots.mapM (f.participant spec siblings) with
      | error e => rfl
      | ok all =>
        change Except.ok _ = Except.ok (List.filter _ (_ :: all))
        rw [List.filter_cons]

/-! ### Settled file emitters -/

/-- A file emitter is **settled** when every slot holds the options that its
emitter works with, so that there is nothing left to offer. -/
def Settled (f : FileEmitter) : Prop :=
  ∀ slot ∈ f.slots, slot.settle f.settings.file = slot

theorem consult_fst {slots : List Slot}
    (h : ∀ slot ∈ slots, slot.settle f.settings.file = slot) :
    (f.consult spec siblings slots).1 = slots := by
  induction slots with
  | nil => rfl
  | cons slot slots ih =>
    rw [List.forall_mem_cons] at h
    cases hslot : slot.settled? f.settings.file with
    | none => rw [consult_cons_of_none hslot]
    | some o =>
      have hsettle := h.1
      rw [Slot.settle, hslot] at hsettle
      rw [consult_cons_of_some hslot, ih h.2, hsettle]

/-- **Generation leaves a settled file emitter as it is**, and the file is the
one that is generated without looking at what becomes of the slots. -/
theorem Settled.generateInPlace_eq (h : f.Settled) (spec : TypeSpec) (siblings : Siblings) :
    f.generateInPlace spec siblings = (f, f.generate spec siblings) := by
  rw [generateInPlace, generate]
  cases spec.declarations with
  | nil => rfl
  | cons target containing =>
    have hps : (f.consult spec siblings f.slots).2 = f.participants spec siblings := by
      rw [consult_snd, participants]
      cases f.slots.mapM (f.participant spec siblings) <;> rfl
    change ({ f with slots := (f.consult spec siblings f.slots).1 },
      (f.consult spec siblings f.slots).2 >>= f.assemble spec target containing) = _
    rw [consult_fst h, hps]
    rfl

theorem Settled.populateInPlace_eq (h : f.Settled) (siblings : Siblings) (specs : List TypeSpec)
    (c : Collection) :
    f.populateInPlace siblings specs c = (f, f.populate siblings specs c) := by
  induction specs generalizing c with
  | nil => rfl
  | cons spec specs ih =>
    rw [populateInPlace, populate, h.generateInPlace_eq]
    cases f.generate spec siblings with
    | error e => rfl
    | ok file => simp only [ih]

/-! ### A life -/

/-- Registration adds a slot with its options settled. -/
theorem add_eq (f : FileEmitter) (e : Emitter) :
    f.add e = { f with slots := f.slots ++ [Slot.settle f.settings.file ⟨e, none⟩] } := rfl

theorem addWith_eq (f : FileEmitter) (e : Emitter) (o : FileOptions) :
    f.addWith e o = { f with slots := f.slots ++ [Slot.settle f.settings.file ⟨e, some o⟩] } := rfl

theorem Settled.snoc (h : f.Settled) (slot : Slot) :
    Settled { f with slots := f.slots ++ [slot.settle f.settings.file] } := by
  intro s hs
  rcases List.mem_append.mp hs with hs | hs
  · exact h s hs
  · rw [List.mem_singleton.mp hs]
    exact slot.settle_settle f.settings.file

/-- **Only registration changes a settled file emitter**, whatever else happens
in between: its slots are those that it had, and behind them what was
registered. -/
theorem Settled.live_eq (h : f.Settled) (calls : List Call) :
    f.live calls =
      { f with slots := f.slots ++ (registered calls).map (Slot.settle f.settings.file) } := by
  induction calls generalizing f with
  | nil =>
    change f = _
    rw [registered, List.map_nil, List.append_nil]
  | cons call calls ih =>
    change (call.after f).live calls = _
    cases call with
    | add e =>
      rw [Call.after, add_eq, ih (h.snoc ⟨e, none⟩), registered, List.map_cons,
        ← List.append_cons]
    | addWith e o =>
      rw [Call.after, addWith_eq, ih (h.snoc ⟨e, some o⟩), registered, List.map_cons,
        ← List.append_cons]
    | generate spec siblings =>
      rw [Call.after, h.generateInPlace_eq, ih h, registered]
    | populate siblings specs c =>
      rw [Call.after, h.populateInPlace_eq, ih h, registered]

/-! ### Missing options -/

/-- A body fails as one of the participants does. -/
theorem exists_of_writeBodies_eq_error {spacing : Nat} {started : Bool} {ps : List Participant}
    {w : Writer} {e : Failure} (h : writeBodies spacing started ps w = .error e) :
    ∃ p ∈ ps, ∃ w, p.emitter.write p.context w = .error e := by
  induction ps generalizing started w with
  | nil => cases h
  | cons p ps ih =>
    rw [writeBodies] at h
    rcases Outcome.bind_eq_error_iff.mp h with hwrite | ⟨written, -, hrest⟩
    · exact ⟨p, List.mem_cons_self .., _, hwrite⟩
    · obtain ⟨q, hq, hfail⟩ : ∃ q ∈ ps, ∃ w, q.emitter.write q.context w = .error e := by
        by_cases hsilent : written.size = (if started then w.blankLines spacing else w).size
        · rw [if_pos hsilent] at hrest
          exact ih hrest
        · rw [if_neg hsilent] at hrest
          exact ih hrest
      exact ⟨q, List.mem_cons_of_mem p hq, hfail⟩

/-- **Generation fails for want of options** exactly when there is a slot
without any, and it names the first. Whether that emitter, or another one, takes
part is not asked. -/
theorem generate_eq_missingOptions_iff (hspec : spec.declarations ≠ [])
    (hwrite : ∀ slot ∈ f.slots, ∀ c w name,
      slot.emitter.write c w ≠ .error (.missingOptions name)) {name : String} :
    f.generate spec siblings = .error (.missingOptions name) ↔
      ∃ before slot behind, f.slots = before ++ slot :: behind ∧
        (∀ s ∈ before, (s.settled? f.settings.file).isSome) ∧
        slot.settled? f.settings.file = none ∧ slot.emitter.name = name := by
  obtain ⟨target, containing, hdecl⟩ := List.exists_cons_of_ne_nil hspec
  rw [generate, hdecl]
  constructor
  · intro h
    rcases Outcome.bind_eq_error_iff.mp h with hps | ⟨ps, hps, h⟩
    · rcases Outcome.bind_eq_error_iff.mp hps with hall | ⟨all, -, ⟨⟩⟩
      obtain ⟨before, slot, behind, hslots, hbefore, hslot⟩ :=
        Outcome.exists_of_mapM_eq_error hall
      obtain ⟨hnone, hname⟩ := participant_eq_error_iff.mp hslot
      refine ⟨before, slot, behind, hslots, fun s hs => ?_, hnone,
        (Failure.missingOptions.inj hname).symm⟩
      obtain ⟨p, hp⟩ := hbefore s hs
      obtain ⟨o, ho, -⟩ := participant_eq_ok_iff.mp hp
      exact Option.isSome_iff_exists.mpr ⟨o, ho⟩
    -- With options for all, no later stage fails like this.
    rcases Outcome.bind_eq_error_iff.mp h with houter | ⟨outer, -, h⟩
    · cases Using.block_error houter
    rcases Outcome.bind_eq_error_iff.mp h with hinner | ⟨inner, -, h⟩
    · cases innerUsings_error hinner
    rcases Outcome.bind_eq_error_iff.mp h with hbody | ⟨w, -, ⟨⟩⟩
    obtain ⟨p, hp, w, hw⟩ := exists_of_writeBodies_eq_error hbody
    obtain ⟨slot, hslot, o, -, rfl, -⟩ := (mem_participants_iff hps).mp hp
    exact absurd hw (hwrite slot hslot _ w name)
  · rintro ⟨before, slot, behind, hslots, hbefore, hnone, rfl⟩
    have hps : f.participants spec siblings = .error (.missingOptions slot.emitter.name) := by
      rw [participants, hslots, Outcome.mapM_eq_error_of_first (fun s hs => ?_)
        (participant_eq_error_iff.mpr ⟨hnone, rfl⟩)]
      · rfl
      · obtain ⟨o, ho⟩ := Option.isSome_iff_exists.mp (hbefore s hs)
        exact ⟨_, participant_eq_ok_iff.mpr ⟨o, ho, rfl⟩⟩
    change (f.participants spec siblings >>= _) = _
    rw [hps]
    rfl

/-! ### The law of first options -/

/-- **The first options stay.** Whatever is done with a file emitter that has no
slots at first, registrations and generations in any order and failures among
them: the emitter that was registered at a place has its explicit options if it
was given any, and otherwise those of the file, if they are shared. What
generating and populating give does not depend on what becomes of the slots. For
a target with a declaration, generation fails for want of options exactly when
options are not shared and some emitter was registered without any, and it names
the first one. -/
theorem first_options_stay (settings : Settings) (fileName : Option (TypeSpec → String))
    (calls : List Call) :
    let f := live { settings, fileName } calls
    (∀ i, f.optionsAt? i = ((registered calls)[i]?).bind fun slot =>
      slot.options.or (if settings.file.shareOptions then some settings.file else none)) ∧
    (∀ siblings specs c,
      (f.populateInPlace siblings specs c).2 = f.populate siblings specs c) ∧
    ∀ spec siblings,
      (f.generateInPlace spec siblings).2 = f.generate spec siblings ∧
      (spec.declarations ≠ [] →
        (∀ slot ∈ registered calls, ∀ c w name,
          slot.emitter.write c w ≠ .error (.missingOptions name)) →
        ∀ name, (f.generateInPlace spec siblings).2 = .error (.missingOptions name) ↔
          settings.file.shareOptions = false ∧
            ∃ before slot behind, registered calls = before ++ slot :: behind ∧
              (∀ s ∈ before, s.options.isSome) ∧ slot.options = none ∧
              slot.emitter.name = name) := by
  intro f
  have hstart : Settled { settings, fileName } := fun slot hslot => absurd hslot List.not_mem_nil
  have hlive : f = ⟨settings, (registered calls).map (Slot.settle settings.file), fileName⟩ := by
    rw [show f = live { settings, fileName } calls from rfl, hstart.live_eq, List.nil_append]
  have hsettled : f.Settled := by
    rw [hlive]
    intro slot hslot
    obtain ⟨s, -, rfl⟩ := List.mem_map.mp hslot
    exact s.settle_settle settings.file
  refine ⟨fun i => ?_, fun siblings specs c => ?_, fun spec siblings => ?_⟩
  · rw [hlive, optionsAt?, List.getElem?_map]
    cases (registered calls)[i]? <;> rfl
  · rw [hsettled.populateInPlace_eq]
  · rw [hsettled.generateInPlace_eq]
    refine ⟨rfl, fun hspec hwrite name => ?_⟩
    have hwrite' : ∀ slot ∈ f.slots, ∀ c w other,
        slot.emitter.write c w ≠ .error (.missingOptions other) := by
      rw [hlive]
      intro slot hslot
      obtain ⟨s, hs, rfl⟩ := List.mem_map.mp hslot
      exact hwrite s hs
    rw [generate_eq_missingOptions_iff hspec hwrite', hlive]
    constructor
    · rintro ⟨before, slot, behind, hslots, hbefore, hnone, rfl⟩
      obtain ⟨before, rest, hregistered, rfl, hrest⟩ := List.map_eq_append_iff.mp hslots
      obtain ⟨slot, behind, rfl, rfl, rfl⟩ := List.map_eq_cons_iff.mp hrest
      obtain ⟨hshare, hoptions⟩ := Slot.settled?_eq_none_iff.mp
        ((slot.settled?_settle settings.file).symm.trans hnone)
      refine ⟨hshare, before, slot, behind, hregistered, fun s hs => ?_, hoptions, rfl⟩
      rw [← s.settled?_of_not_shared hshare, ← s.settled?_settle]
      exact hbefore _ (List.mem_map_of_mem hs)
    · rintro ⟨hshare, before, slot, behind, hregistered, hbefore, hoptions, rfl⟩
      refine ⟨before.map (Slot.settle settings.file), slot.settle settings.file,
        behind.map (Slot.settle settings.file), ?_, fun s hs => ?_, ?_, rfl⟩
      · rw [hregistered, List.map_append, List.map_cons]
      · obtain ⟨t, ht, rfl⟩ := List.mem_map.mp hs
        rw [t.settled?_settle, t.settled?_of_not_shared hshare]
        exact hbefore t ht
      · rw [slot.settled?_settle, slot.settled?_of_not_shared hshare, hoptions]

/-- Options are not shared, and the emitter that was registered without any
would decline every target. It is the one that generation fails for, after it
has succeeded and failed before. -/
theorem first_options_stay_declining :
    let raw : Emitter := .snippet { name := "raw", text := "int x;" }
    let shy : Emitter := { name := "shy", accepts := fun _ => false, write := fun _ w => .ok w }
    let spec : TypeSpec :=
      { ns := none, declarations := ["class A"], target := .ref (.ofName "A" .classType) }
    let calls : List Call := [.addWith raw { emitterSpacing := 3 }, .generate spec .empty, .add shy,
      .populate .empty [spec, spec] .empty, .addWith raw {}, .add raw]
    let f := live { settings := { file := { shareOptions := false } } } calls
    spec.declarations ≠ [] ∧
      (∀ slot ∈ registered calls, ∀ c w name,
        slot.emitter.write c w ≠ .error (.missingOptions name)) ∧
      f.optionsAt? 0 = some { emitterSpacing := 3 } ∧ f.optionsAt? 1 = none ∧
      f.optionsAt? 2 = some {} ∧
      (f.generateInPlace spec .empty).2 = .error (.missingOptions "shy") := by
  intro raw shy spec calls f
  have hwrite : ∀ slot ∈ registered calls, ∀ c w name,
      slot.emitter.write c w ≠ .error (.missingOptions name) := by
    intro slot hslot c w name
    simp only [calls, registered, List.mem_cons, List.not_mem_nil, or_false] at hslot
    -- Neither of the two emitters ever fails.
    rcases hslot with rfl | rfl | rfl | rfl <;> exact fun h => nomatch h
  obtain ⟨hoptions, -, hgenerate⟩ :=
    first_options_stay { file := { shareOptions := false } } none calls
  refine ⟨by decide, hwrite, hoptions 0, hoptions 1, hoptions 2, ?_⟩
  refine ((hgenerate spec .empty).2 (by decide) hwrite "shy").mpr ⟨rfl, ?_⟩
  exact ⟨[⟨raw, some { emitterSpacing := 3 }⟩], ⟨shy, none⟩, [⟨raw, some {}⟩, ⟨raw, none⟩], rfl,
    by simp, rfl, rfl⟩

end FileEmitter

end SharpSource
