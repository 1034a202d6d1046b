import SharpSource.Proofs.Emission

/-!
# When generation fails

Generation goes through five stages, and each of them can fail in one way only:
there are declarations; there are options for every emitter; no outer using is
blank; no inner using is blank, if there is a namespace; and the members can be
declared, if they are to be. The failure of a generation is that of the first
stage that fails (`FileEmitter.failure?`), and nothing else can go wrong
(`FileEmitter.generate_fails_exactly`).

The stages do not look at the same emitters. Options are settled for all of
them, and the rest is asked only of those that are active for the target. So it
is settled stage by stage what each fails with (`Outcome.FailsWith`), and that
the failure of a chain is the first one among its links is said once, in
`Outcome.FailsWith.bind`.
-/

namespace SharpSource

open Outcome (FailsWith)

/-! ### Members -/

/-- What is wrong with an accessibility that has no keyword. -/
def Accessibility.fault? (a : Accessibility) : Option Failure :=
  if a = .notApplicable ∨ a = .protectedOrInternal then some (.accessibility a) else none

namespace Member

/-- The accessibilities that the declaration of a member spells out: its own,
and for a property those of its accessors. One that can only be read has no
accessor that writes. -/
def accesses (m : Member) : List Accessibility :=
  m.accessibility ::
    if m.isProperty then m.getter :: if m.isReadOnly then [] else [m.setter] else []

/-- **What is wrong with a member** that cannot be declared. -/
def fault? (m : Member) : Option Failure :=
  m.accesses.findSome? Accessibility.fault?

end Member

theorem Declaration.accessibility_failsWith (a : Accessibility) :
    FailsWith (Declaration.accessibility a) a.fault? := by
  cases a with
  | notApplicable => exact .of_error _
  | protectedOrInternal => exact .of_error _
  | _ => exact .of_ok _

namespace Member

/-- An accessor that follows its member is not looked at, and the member has
been. -/
theorem accessor_failsWith {m : Member} (hm : m.accessibility.fault? = none) (own : Accessibility)
    (keyword : String) : FailsWith (m.accessor own keyword) own.fault? := by
  rw [accessor]
  split
  · rename_i hown
    rw [hown, hm]
    exact .of_ok _
  · rw [← own.fault?.or_none]
    exact (Declaration.accessibility_failsWith own).bind fun access _ => .of_ok _

theorem propertyLine_failsWith (m : Member) : FailsWith m.propertyLine
    (m.accessibility.fault?.or (m.getter.fault?.or
      (if m.isReadOnly then none else m.setter.fault?))) := by
  rw [propertyLine]
  have haccess := Declaration.accessibility_failsWith m.accessibility
  refine haccess.bind fun access hok => ?_
  have hm := haccess.ok_iff.mp ⟨access, hok⟩
  refine (accessor_failsWith hm m.getter "get").bind fun getter _ => ?_
  cases m.isReadOnly with
  | true => exact .of_ok _
  | false =>
    rw [if_neg Bool.false_ne_true, ← m.setter.fault?.or_none]
    exact ((accessor_failsWith hm m.setter _).map _).bind fun setter _ => .of_ok _

/-- **A member cannot be declared** when one of the accessibilities has no
keyword that its declaration spells out, and the first of them is the
failure. -/
theorem declaration_failsWith (m : Member) : FailsWith m.declaration m.fault? := by
  rw [declaration, fault?, accesses, FailsWith.findSome?_cons_eq_or]
  split
  · have hline := m.propertyLine_failsWith
    rw [FailsWith.findSome?_cons_eq_or]
    cases hread : m.isReadOnly with
    | true => simpa [hread] using hline
    | false => simpa [hread, FailsWith.findSome?_cons_eq_or] using hline
  · exact (Declaration.accessibility_failsWith m.accessibility).bind fun access _ => .of_ok _

end Member

/-! ### Built-in emitters -/

namespace Builtin

/-- Whether a built-in emitter takes part in the file of a target. -/
def isActive (spec : TypeSpec) : Builtin → Bool
  | properties => !spec.members.isEmpty
  | equatable => (Emitter.equatableTarget? spec).isSome
  | snippet _ => true

/-- The using directives above the namespace that a built-in emitter asks
for. -/
def outerUsings : Builtin → List String
  | snippet s => s.outerUsings
  | _ => []

/-- The using directives inside the namespace that a built-in emitter asks
for. -/
def innerUsings : Builtin → List String
  | snippet s => s.innerUsings
  | _ => []

/-- What a built-in emitter fails with. Only members can be wrong. -/
def fault? (spec : TypeSpec) : Builtin → Option Failure
  | properties => spec.members.findSome? Member.fault?
  | _ => none

variable (b : Builtin) (c : Context)

theorem accepts_eq : b.emitter.accepts c = b.isActive c.spec := by
  cases b <;> rfl

theorem emitter_outerUsings : b.emitter.outerUsings c = b.outerUsings := by
  cases b <;> rfl

theorem emitter_innerUsings : b.emitter.innerUsings c = b.innerUsings := by
  cases b <;> rfl

/-- **A built-in emitter fails with the first member that cannot be declared**,
wherever it writes. -/
theorem write_failsWith (w : Writer) : FailsWith (b.emitter.write c w) (b.fault? c.spec) := by
  rw [write_eq]
  refine FailsWith.map ?_ _
  cases b with
  | properties =>
    refine FailsWith.map (.mapM fun m _ => ?_) _
    exact m.declaration_failsWith.map _
  | equatable => exact .of_ok _
  | snippet s => exact .of_ok _

end Builtin

namespace FileEmitter

/-- **A file emitter over built-in emitters**, with or without options for each
of them. -/
def ofSlots (settings : Settings) (fileName : Option (TypeSpec → String))
    (bs : List (Builtin × Option FileOptions)) : FileEmitter :=
  { settings, fileName, slots := bs.map fun b => ⟨b.1.emitter, b.2⟩ }

/-- Every file emitter whose emitters are built-in is one of these, however it
came about. -/
theorem exists_eq_ofSlots {f : FileEmitter}
    (h : ∀ slot ∈ f.slots, ∃ b : Builtin, slot.emitter = b.emitter) :
    ∃ bs, f = ofSlots f.settings f.fileName bs := by
  obtain ⟨settings, slots, fileName⟩ := f
  have hslots : ∃ bs : List (Builtin × Option FileOptions),
      slots = bs.map fun b => ⟨b.1.emitter, b.2⟩ := by
    induction slots with
    | nil => exact ⟨[], rfl⟩
    | cons slot slots ih =>
      obtain ⟨⟨b, hb⟩, hrest⟩ := List.forall_mem_cons.mp h
      obtain ⟨bs, rfl⟩ := ih hrest
      exact ⟨(b, slot.options) :: bs, by rw [List.map_cons, ← hb]⟩
  obtain ⟨bs, rfl⟩ := hslots
  exact ⟨bs, rfl⟩

/-- The built-in emitters that take part in the file of a target, in order. -/
def active (bs : List (Builtin × Option FileOptions)) (spec : TypeSpec) : List Builtin :=
  (bs.map (·.1)).filter (·.isActive spec)

/-! ### The stages of a generation -/

section Stages

variable (settings : Settings) (bs : List (Builtin × Option FileOptions)) (spec : TypeSpec)

/-- The first emitter without options, where these are not shared. -/
def missingOptions? : Option Failure :=
  bs.findSome? fun b =>
    if settings.file.shareOptions = false ∧ b.2 = none then some (.missingOptions b.1.emitter.name)
    else none

/-- A blank directive above the namespace. -/
def blankOuter? : Option Failure :=
  if ∃ d ∈ settings.file.outerUsings ++ (active bs spec).flatMap Builtin.outerUsings,
      Text.isBlankText d then some .blankUsing
  else none

/-- A blank directive inside of a namespace. -/
def blankInner? : Option Failure :=
  if spec.ns.isSome ∧ ∃ d ∈ settings.file.innerUsings ++
      (active bs spec).flatMap Builtin.innerUsings, Text.isBlankText d then some .blankUsing
  else none

/-- The first member that cannot be declared, where members are declared at
all. -/
def undeclarable? : Option Failure :=
  if Builtin.properties ∈ active bs spec then spec.members.findSome? Member.fault? else none

/-- **What a generation fails with**: the first of what can be wrong. -/
def failure? : Option Failure :=
  if spec.declarations = [] then some (.noDeclarations spec.targetName)
  else (missingOptions? settings bs).or <| (blankOuter? settings bs spec).or <|
    (blankInner? settings bs spec).or (undeclarable? bs spec)

end Stages

variable {settings : Settings} {fileName : Option (TypeSpec → String)}
  {bs : List (Builtin × Option FileOptions)} {spec : TypeSpec} {siblings : Siblings}
  {ps : List Participant}

/-- **Options are settled** for all emitters, or the first one is named for
which they are not. -/
theorem participants_failsWith : FailsWith
    ((ofSlots settings fileName bs).participants spec siblings) (missingOptions? settings bs) := by
  rw [participants, ← (missingOptions? settings bs).or_none]
  refine FailsWith.bind ?_ fun all _ => .of_ok _
  rw [ofSlots, List.mapM_map]
  refine .mapM fun b _ => ?_
  rcases b with ⟨b, options⟩
  rw [Function.comp_apply, participant]
  cases options with
  | some o =>
    rw [if_neg (by simp)]
    exact .of_ok _
  | none =>
    cases settings.file.shareOptions with
    | true => exact .of_ok _
    | false => exact .of_error _

/-- **The participants are the active emitters**, each with some options. -/
theorem forall₂_active (h : (ofSlots settings fileName bs).participants spec siblings = .ok ps) :
    List.Forall₂ (fun b p => ∃ o, p = ⟨b.emitter, ⟨spec, o, siblings⟩⟩) (active bs spec) ps := by
  obtain ⟨all, hall, ⟨⟩⟩ := Outcome.bind_eq_ok_iff.mp h
  rw [Outcome.mapM_eq_ok_iff, ofSlots, List.forall₂_map_left_iff] at hall
  have hfront : List.Forall₂ (fun (b : Builtin) p => ∃ o, p = ⟨b.emitter, ⟨spec, o, siblings⟩⟩)
      (bs.map (·.1)) all := by
    rw [List.forall₂_map_left_iff]
    refine hall.imp fun b p hp => ?_
    obtain ⟨o, -, rfl⟩ := participant_eq_ok_iff.mp hp
    exact ⟨o, rfl⟩
  refine List.rel_filter (fun {b p} hp => ?_) hfront
  obtain ⟨o, rfl⟩ := hp
  exact Bool.eq_iff_iff.mp (b.accepts_eq ⟨spec, o, siblings⟩).symm

/-- What the participants contribute, from what the active emitters ask for. -/
theorem contributions_active {part : Emitter → Context → List String}
    {asked : Builtin → List String} (hpart : ∀ b c, part b.emitter c = asked b) {as : List Builtin}
    (h : List.Forall₂ (fun b p => ∃ o, p = ⟨b.emitter, ⟨spec, o, siblings⟩⟩) as ps) :
    contributions part ps = as.flatMap asked := by
  induction h with
  | nil => rfl
  | cons hp _ ih =>
    obtain ⟨o, rfl⟩ := hp
    rw [contributions, List.flatMap_cons, hpart, List.flatMap_cons]
    exact congrArg _ ih

/-- **The bodies fail with the first active emitter that does**, wherever they
are written. -/
theorem writeBodies_failsWith {as : List Builtin} (spacing : Nat) (started : Bool) (w : Writer)
    (h : List.Forall₂ (fun b p => ∃ o, p = ⟨b.emitter, ⟨spec, o, siblings⟩⟩) as ps) :
    FailsWith (writeBodies spacing started ps w) (as.findSome? (Builtin.fault? spec)) := by
  induction h generalizing started w with
  | nil => exact .of_ok w
  | cons hp _ ih =>
    obtain ⟨o, rfl⟩ := hp
    rw [writeBodies, FailsWith.findSome?_cons_eq_or]
    refine (Builtin.write_failsWith _ _ _).bind fun written _ => ?_
    by_cases hsilent : written.size = (if started then w.blankLines spacing else w).size
    · rw [if_pos hsilent]
      exact ih _ _
    · rw [if_neg hsilent]
      exact ih _ _

/-- Whichever active emitter declares members, it comes upon the same ones. -/
theorem findSome?_fault?_eq (as : List Builtin) : as.findSome? (Builtin.fault? spec) =
    if Builtin.properties ∈ as then spec.members.findSome? Member.fault? else none := by
  induction as with
  | nil => rfl
  | cons b as ih =>
    rw [FailsWith.findSome?_cons_eq_or, ih]
    cases b with
    | properties =>
      rw [if_pos (List.mem_cons_self ..), Builtin.fault?]
      split
      · exact Option.or_self
      · exact Option.or_none
    | _ => simp [Builtin.fault?]

/-- A block of directives fails when one of them is blank. -/
theorem block_failsWith (ds : List String) : FailsWith (Using.block ds)
    (if ∃ d ∈ ds, Text.isBlankText d then some .blankUsing else none) :=
  .of_iff (fun _ => Using.block_error) (by rw [Using.block_ok_iff]; simp)

/-- **What a generation fails with** is the first of what can be wrong, and a
generation with nothing wrong comes to a file. -/
theorem generate_failsWith : FailsWith ((ofSlots settings fileName bs).generate spec siblings)
    (failure? settings bs spec) := by
  rw [generate, failure?]
  cases hdecl : spec.declarations with
  | nil => exact .of_error _
  | cons target containing =>
    rw [if_neg (List.cons_ne_nil _ _)]
    refine participants_failsWith.bind fun ps hps => ?_
    have hactive := forall₂_active hps
    refine FailsWith.bind ?_ fun outer _ => FailsWith.bind ?_ fun inner _ => ?_
    · rw [contributions_active Builtin.emitter_outerUsings hactive]
      exact block_failsWith _
    · rw [innerUsings, blankInner?]
      cases spec.ns with
      | none => exact .of_ok _
      | some ns =>
        rw [contributions_active Builtin.emitter_innerUsings hactive]
        simp only [Option.isSome_some, true_and]
        exact block_failsWith _
    · rw [undeclarable?, ← findSome?_fault?_eq, ← (List.findSome? _ _).or_none]
      exact (writeBodies_failsWith _ _ _ hactive).bind fun w _ => .of_ok _

/-- Only a target without declarations breaks the contract of a generation. -/
theorem contract_iff {e : Failure} (h : failure? settings bs spec = some e) :
    e.toClass = .contract ↔ spec.declarations = [] := by
  rw [failure?] at h
  split at h
  · rename_i hnone
    cases h
    exact iff_of_true rfl hnone
  · rename_i hsome
    refine iff_of_false (fun hclass => ?_) hsome
    simp only [Option.or_eq_some_iff] at h
    rcases h with hmissing | ⟨-, houter | ⟨-, hinner | ⟨-, hmember⟩⟩⟩
    · obtain ⟨b, -, hb⟩ := List.exists_of_findSome?_eq_some hmissing
      obtain ⟨-, ⟨⟩⟩ := Option.ite_none_right_eq_some.mp hb
      cases hclass
    · obtain ⟨-, ⟨⟩⟩ := Option.ite_none_right_eq_some.mp houter
      cases hclass
    · obtain ⟨-, ⟨⟩⟩ := Option.ite_none_right_eq_some.mp hinner
      cases hclass
    · obtain ⟨-, hmember⟩ := Option.ite_none_right_eq_some.mp hmember
      obtain ⟨m, -, hm⟩ := List.exists_of_findSome?_eq_some hmember
      obtain ⟨a, -, ha⟩ := List.exists_of_findSome?_eq_some hm
      obtain ⟨-, ⟨⟩⟩ := Option.ite_none_right_eq_some.mp ha
      cases hclass

/-- **When generation fails.** Whatever the settings, the built-in emitters and
their options, the target and its siblings are: a generation breaks its contract
exactly when the target has no declarations. Otherwise it fails exactly with the
first of these that there is: an emitter without options, where options are not
shared; a blank directive above the namespace, from the options of the file or
an active emitter; a blank directive inside of the namespace, if there is one; a
member that an active emitter is to declare and that spells out an accessibility
without a keyword. When there is none of these, there is a file. -/
theorem generate_fails_exactly (settings : Settings) (fileName : Option (TypeSpec → String))
    (bs : List (Builtin × Option FileOptions)) (spec : TypeSpec) (siblings : Siblings) :
    let generated := (ofSlots settings fileName bs).generate spec siblings
    ((∃ e, generated = .error e ∧ e.toClass = .contract) ↔ spec.declarations = []) ∧
    (∀ e, generated = .error e ↔ failure? settings bs spec = some e) ∧
    ((∃ file, generated = .ok file) ↔ failure? settings bs spec = none) := by
  intro generated
  have hfails : FailsWith generated (failure? settings bs spec) := generate_failsWith
  refine ⟨⟨?_, fun hnone => ?_⟩, hfails, hfails.ok_iff⟩
  · rintro ⟨e, he, hclass⟩
    exact (contract_iff ((hfails e).mp he)).mp hclass
  · have hfailure : failure? settings bs spec = some (.noDeclarations spec.targetName) := by
      rw [failure?, if_pos hnone]
    exact ⟨_, (hfails _).mpr hfailure, rfl⟩

/-- Options come before directives, and an emitter needs them also where it
declines. -/
example : failure? { file := { shareOptions := false, outerUsings := [" "] } }
    [(.equatable, some {}), (.properties, none)]
    { ns := none, declarations := ["class Order"], target := .ref (.ofName "Order" .classType) } =
      some (.missingOptions "properties") := by
  decide +kernel

end FileEmitter

end SharpSource
