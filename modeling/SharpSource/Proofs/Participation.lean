import SharpSource.FileEmitter
import SharpSource.Proofs.Outcome

/-!
# Who takes part in a file

Every emitter of a file is given options before it is asked whether it takes
part: its own, or those of the file where these are shared (`Slot.settled?`).
An emitter that is left without options is an error, also one that would have
declined. So whether there are participants at all depends on the slots and the
settings alone, and not on the target (`FileEmitter.participants_ok_iff`).
-/

namespace SharpSource

/-- **The options that the emitter in a slot works with**: its own, or else
those of the file where these are shared. -/
def Slot.settled? (s : Slot) (file : FileOptions) : Option FileOptions :=
  s.options.or (if file.shareOptions then some file else none)

namespace FileEmitter

variable {f : FileEmitter} {spec : TypeSpec} {siblings : Siblings}

/-! ### One emitter -/

theorem participant_eq_ok_iff {slot : Slot} {p : Participant} :
    f.participant spec siblings slot = .ok p ↔
      ∃ o, slot.settled? f.settings.file = some o ∧ p = ⟨slot.emitter, ⟨spec, o, siblings⟩⟩ := by
  rcases slot with ⟨e, options⟩
  cases options with
  | some o =>
    constructor
    · rintro ⟨⟩
      exact ⟨o, rfl, rfl⟩
    · rintro ⟨o', ⟨⟩, rfl⟩
      rfl
  | none =>
    rw [participant, Slot.settled?]
    cases f.settings.file.shareOptions with
    | true =>
      constructor
      · rintro ⟨⟩
        exact ⟨f.settings.file, rfl, rfl⟩
      · rintro ⟨o', ⟨⟩, rfl⟩
        rfl
    | false =>
      constructor
      · rintro ⟨⟩
      · rintro ⟨o', ⟨⟩, -⟩

/-- An emitter without options is named in the failure. -/
theorem participant_eq_error_iff {slot : Slot} {e : Failure} :
    f.participant spec siblings slot = .error e ↔
      slot.settled? f.settings.file = none ∧ e = .missingOptions slot.emitter.name := by
  rcases slot with ⟨em, options⟩
  cases options with
  | some o =>
    constructor
    · rintro ⟨⟩
    · rintro ⟨⟨⟩, -⟩
  | none =>
    rw [participant, Slot.settled?]
    cases f.settings.file.shareOptions with
    | true =>
      constructor
      · rintro ⟨⟩
      · rintro ⟨⟨⟩, -⟩
    | false =>
      constructor
      · rintro ⟨⟩
        exact ⟨rfl, rfl⟩
      · rintro ⟨-, rfl⟩
        rfl

/-! ### All of them -/

/-- **A participant comes from a slot**, with the options that were settled for
it, and it has accepted the target. -/
theorem mem_participants_iff {ps : List Participant} (h : f.participants spec siblings = .ok ps)
    {p : Participant} :
    p ∈ ps ↔ ∃ slot ∈ f.slots, ∃ o, slot.settled? f.settings.file = some o ∧
      p = ⟨slot.emitter, ⟨spec, o, siblings⟩⟩ ∧ p.emitter.accepts p.context := by
  obtain ⟨all, hall, ⟨⟩⟩ := Outcome.bind_eq_ok_iff.mp h
  rw [List.mem_filter]
  constructor
  · rintro ⟨hmem, haccepts⟩
    obtain ⟨slot, hslot, hp⟩ := Outcome.exists_of_mem_results hall hmem
    obtain ⟨o, ho, rfl⟩ := participant_eq_ok_iff.mp hp
    exact ⟨slot, hslot, o, ho, rfl, haccepts⟩
  · rintro ⟨slot, hslot, o, ho, rfl, haccepts⟩
    obtain ⟨p, hp, hmem⟩ := Outcome.ok_of_mem_of_mapM hall hslot
    obtain ⟨o', ho', rfl⟩ := participant_eq_ok_iff.mp hp
    obtain rfl : o' = o := Option.some.inj (ho'.symm.trans ho)
    exact ⟨hmem, haccepts⟩

/-- What holds of the emitters in all slots, whatever their options are, holds
of the participants. -/
theorem forall_participants {P : Emitter → Context → Prop} {ps : List Participant}
    (h : f.participants spec siblings = .ok ps)
    (hslots : ∀ slot ∈ f.slots, ∀ o, P slot.emitter ⟨spec, o, siblings⟩) :
    ∀ p ∈ ps, P p.emitter p.context := by
  intro p hp
  obtain ⟨slot, hslot, o, -, rfl, -⟩ := (mem_participants_iff h).mp hp
  exact hslots slot hslot o

/-- **There are participants** exactly when options can be settled for every
slot. -/
theorem participants_ok_iff :
    (∃ ps, f.participants spec siblings = .ok ps) ↔
      ∀ slot ∈ f.slots, (slot.settled? f.settings.file).isSome := by
  constructor
  · rintro ⟨ps, hps⟩ slot hslot
    obtain ⟨all, hall, -⟩ := Outcome.bind_eq_ok_iff.mp hps
    obtain ⟨p, hp, -⟩ := Outcome.ok_of_mem_of_mapM hall hslot
    obtain ⟨o, ho, -⟩ := participant_eq_ok_iff.mp hp
    exact Option.isSome_iff_exists.mpr ⟨o, ho⟩
  · intro h
    obtain ⟨all, hall⟩ := Outcome.mapM_ok_of_forall (f := f.participant spec siblings)
      fun slot hslot => by
        obtain ⟨o, ho⟩ := Option.isSome_iff_exists.mp (h slot hslot)
        exact ⟨_, participant_eq_ok_iff.mpr ⟨o, ho, rfl⟩⟩
    exact ⟨_, Outcome.bind_eq_ok_iff.mpr ⟨all, hall, rfl⟩⟩

end FileEmitter

end SharpSource
