import SharpSource.Proofs.Description
import SharpSource.Proofs.Directives
import SharpSource.Proofs.Participation
import SharpSource.Proofs.Pieces

/-!
# What generation can still fail on

Validation looks at the names, kinds and accessibilities of a manifest, and
not at its using directives or at which options its emitters are given. So a
manifest that passes validation can still fail when it is generated, but only
for these two reasons: `Manifest.Emits` spells out when neither applies to an
entry.

Generation asks in a fixed order for the options of the emitters, the outer
usings, the inner usings and the bodies. Each of these is settled by a lemma of
its own (`FileEmitter.participants_ok_iff`, `Using.block_ok_iff`,
`FileEmitter.writeBodies_ok`), and `FileEmitter.generate_ok_iff` puts them
together for one file. What is left is to see which directives the snippets of
an entry contribute, and to go through the entries in order.
-/

namespace SharpSource

/-! ### One file -/

namespace FileEmitter

variable {f : FileEmitter} {spec : TypeSpec} {siblings : Siblings}

/-- Bodies are written when every participant writes, whatever it finds. -/
theorem writeBodies_ok {ps : List Participant} (spacing : Nat) (started : Bool) (w : Writer)
    (h : ∀ p ∈ ps, ∀ w, ∃ w', p.emitter.write p.context w = .ok w') :
    ∃ w', writeBodies spacing started ps w = .ok w' := by
  induction ps generalizing started w with
  | nil => exact ⟨w, rfl⟩
  | cons p ps ih =>
    rw [List.forall_mem_cons] at h
    obtain ⟨written, hwritten⟩ := h.1 (if started then w.blankLines spacing else w)
    rw [writeBodies, hwritten, Outcome.ok_bind]
    by_cases hsilent : written.size = (if started then w.blankLines spacing else w).size
    · rw [if_pos hsilent]
      exact ih _ _ h.2
    · rw [if_neg hsilent]
      exact ih _ _ h.2

/-- The inner usings of a target are looked at only in a namespace. -/
theorem innerUsings_ok_iff {o : FileOptions} {ps : List Participant} :
    (∃ inner, innerUsings o spec ps = .ok inner) ↔ spec.ns = none ∨
      ∀ d ∈ o.innerUsings ++ contributions Emitter.innerUsings ps,
        Text.isBlankText d = false := by
  rw [innerUsings]
  cases spec.ns with
  | none => exact ⟨fun _ => Or.inl rfl, fun _ => ⟨[], rfl⟩⟩
  | some ns =>
    rw [← Using.block_ok_iff]
    exact ⟨fun h => Or.inr h, fun h => h.resolve_left (Option.some_ne_none ns)⟩

theorem innerUsings_error {o : FileOptions} {ps : List Participant} {e : Failure}
    (h : innerUsings o spec ps = .error e) : e = .blankUsing := by
  rw [innerUsings] at h
  split at h
  · exact Using.block_error h
  · cases h

/-- A file is generated when each stage in turn comes to a result. -/
theorem generate_eq_ok_iff {file : SourceFile} :
    f.generate spec siblings = .ok file ↔
      ∃ target containing ps outer inner w,
        spec.declarations = target :: containing ∧ f.participants spec siblings = .ok ps ∧
        Using.block (f.settings.file.outerUsings ++ contributions Emitter.outerUsings ps) =
          .ok outer ∧
        innerUsings f.settings.file spec ps = .ok inner ∧
        f.writeBody ps (f.writeHead spec ps outer inner target containing) = .ok w ∧
        (⟨f.nameOf spec, w.closeAll.text⟩ : SourceFile) = file := by
  rw [generate]
  constructor
  · intro h
    split at h
    · cases h
    · rename_i target containing hspec
      obtain ⟨ps, hps, h⟩ := Outcome.bind_eq_ok_iff.mp h
      obtain ⟨outer, houter, h⟩ := Outcome.bind_eq_ok_iff.mp h
      obtain ⟨inner, hinner, h⟩ := Outcome.bind_eq_ok_iff.mp h
      obtain ⟨w, hw, h⟩ := Outcome.bind_eq_ok_iff.mp h
      exact ⟨target, containing, ps, outer, inner, w, hspec, hps, houter, hinner, hw,
        Except.ok.inj h⟩
  · rintro ⟨target, containing, ps, outer, inner, w, hspec, hps, houter, hinner, hw, rfl⟩
    simp only [hspec, hps, houter, hinner, hw, Outcome.ok_bind]
    rfl

/-- **Where the bodies cannot fail**, a file is generated exactly when options
can be settled for all emitters and no directive is blank that is looked at. -/
theorem generate_ok_iff (hspec : spec.declarations ≠ [])
    (hwrite : ∀ slot ∈ f.slots, ∀ o w,
      ∃ w', slot.emitter.write ⟨spec, o, siblings⟩ w = .ok w') :
    (∃ file, f.generate spec siblings = .ok file) ↔
      ∃ ps, f.participants spec siblings = .ok ps ∧
        (∀ d ∈ f.settings.file.outerUsings ++ contributions Emitter.outerUsings ps,
          Text.isBlankText d = false) ∧
        (spec.ns = none ∨ ∀ d ∈ f.settings.file.innerUsings ++
          contributions Emitter.innerUsings ps, Text.isBlankText d = false) := by
  constructor
  · rintro ⟨file, h⟩
    obtain ⟨-, -, ps, outer, inner, -, -, hps, houter, hinner, -, -⟩ := generate_eq_ok_iff.mp h
    exact ⟨ps, hps, Using.block_ok_iff.mp ⟨outer, houter⟩, innerUsings_ok_iff.mp ⟨inner, hinner⟩⟩
  · rintro ⟨ps, hps, houter, hinner⟩
    obtain ⟨target, containing, hdecl⟩ := List.exists_cons_of_ne_nil hspec
    obtain ⟨outer, houter⟩ := Using.block_ok_iff.mpr houter
    obtain ⟨inner, hinner⟩ := innerUsings_ok_iff.mpr hinner
    obtain ⟨w, hw⟩ : ∃ w, f.writeBody ps
        (f.writeHead spec ps outer inner target containing) = .ok w :=
      writeBodies_ok _ _ _
        (forall_participants (P := fun e c => ∀ w, ∃ w', e.write c w = .ok w') hps hwrite)
    exact ⟨_, generate_eq_ok_iff.mpr
      ⟨target, containing, ps, outer, inner, w, hdecl, hps, houter, hinner, hw, rfl⟩⟩

/-- **Where the bodies cannot fail**, what is left to fail on is options and
blank directives. -/
theorem generate_error {e : Failure} (hspec : spec.declarations ≠ [])
    (hwrite : ∀ slot ∈ f.slots, ∀ o w,
      ∃ w', slot.emitter.write ⟨spec, o, siblings⟩ w = .ok w')
    (h : f.generate spec siblings = .error e) :
    (∃ name, e = .missingOptions name) ∨ e = .blankUsing := by
  obtain ⟨target, containing, hdecl⟩ := List.exists_cons_of_ne_nil hspec
  rw [generate, hdecl] at h
  -- The stages come in this order, and only the last of them cannot fail.
  rcases Outcome.bind_eq_error_iff.mp h with hps | ⟨ps, hps, h⟩
  · rcases Outcome.bind_eq_error_iff.mp hps with hall | ⟨all, -, ⟨⟩⟩
    obtain ⟨before, slot, behind, -, -, hslot⟩ := Outcome.exists_of_mapM_eq_error hall
    exact Or.inl ⟨_, (participant_eq_error_iff.mp hslot).2⟩
  rcases Outcome.bind_eq_error_iff.mp h with houter | ⟨outer, -, h⟩
  · exact Or.inr (Using.block_error houter)
  rcases Outcome.bind_eq_error_iff.mp h with hinner | ⟨inner, -, h⟩
  · exact Or.inr (innerUsings_error hinner)
  rcases Outcome.bind_eq_error_iff.mp h with hbody | ⟨w, -, ⟨⟩⟩
  obtain ⟨w, hw⟩ := writeBodies_ok f.settings.file.emitterSpacing false
    (f.writeHead spec ps outer inner target containing)
    (forall_participants (P := fun e c => ∀ w, ∃ w', e.write c w = .ok w') hps hwrite)
  rw [writeBody, hw] at hbody
  cases hbody

end FileEmitter

/-! ### The emitters of an entry -/

namespace TypeEntry

variable {e : TypeEntry} {settings : Settings} {spec : TypeSpec} {siblings : Siblings}

/-- The emitters of an entry are registered in order, with the options of the
file where these are shared. -/
theorem fileEmitter_eq (e : TypeEntry) (settings : Settings) :
    e.fileEmitter settings = { settings, slots := e.builtins.map fun b =>
      ⟨b.emitter, if settings.file.shareOptions then some settings.file else none⟩ } := by
  have hadd : ∀ (bs : List Builtin) (slots : List Slot),
      bs.foldl (fun f b => f.add b.emitter) ({ settings, slots } : FileEmitter) =
        { settings, slots := slots ++ bs.map fun b =>
          ⟨b.emitter, if settings.file.shareOptions then some settings.file else none⟩ } := by
    intro bs
    induction bs with
    | nil => simp
    | cons b bs ih =>
      intro slots
      rw [List.foldl_cons]
      refine (ih _).trans ?_
      rw [List.map_cons, List.append_assoc]
      rfl
  exact hadd e.builtins []

theorem exists_builtin_of_mem_slots {slot : Slot} (h : slot ∈ (e.fileEmitter settings).slots) :
    ∃ b ∈ e.builtins, slot.emitter = b.emitter := by
  rw [fileEmitter_eq] at h
  obtain ⟨b, hb, rfl⟩ := List.mem_map.mp h
  exact ⟨b, hb, rfl⟩

/-- **Options can be settled** for the emitters of an entry when they are
shared, or when there is no emitter to settle them for. -/
theorem settled_iff : (∀ slot ∈ (e.fileEmitter settings).slots,
      (slot.settled? (e.fileEmitter settings).settings.file).isSome) ↔
    settings.file.shareOptions = true ∨ (e.emitters = [] ∧ e.snippets = []) := by
  rw [fileEmitter_eq]
  cases hshare : settings.file.shareOptions with
  | true => simp [Slot.settled?, hshare]
  | false =>
    have hnone : (∀ slot ∈ e.builtins.map fun b => (⟨b.emitter, none⟩ : Slot),
        (slot.settled? settings.file).isSome) ↔ e.builtins = [] := by
      cases e.builtins <;> simp [Slot.settled?, hshare]
    have hempty : e.builtins = [] ↔ e.emitters = [] ∧ e.snippets = [] := by
      simp [builtins]
    rw [← hempty, ← hnone]
    simp

/-- **Only snippets contribute directives.** For directives of either sort, what
the participants of an entry contribute is what its snippets ask for. -/
theorem mem_contributions_iff (part : Emitter → Context → List String)
    (field : SnippetEntry → List String) (hkind : ∀ (k : BodyKind) c, part k.builtin.emitter c = [])
    (hsnippet : ∀ s place c, part (Builtin.snippet (s.toSnippet place)).emitter c = field s)
    {ps : List Participant}
    (hps : (e.fileEmitter settings).participants spec siblings = .ok ps) {d : String} :
    d ∈ FileEmitter.contributions part ps ↔ d ∈ e.snippets.flatMap field := by
  rw [FileEmitter.contributions, List.mem_flatMap, List.mem_flatMap]
  constructor
  · rintro ⟨p, hp, hd⟩
    obtain ⟨slot, hslot, o, -, rfl, -⟩ := (FileEmitter.mem_participants_iff hps).mp hp
    obtain ⟨b, hb, hemitter⟩ := exists_builtin_of_mem_slots hslot
    rw [hemitter] at hd
    rcases List.mem_append.mp hb with hb | hb
    · obtain ⟨k, -, rfl⟩ := List.mem_map.mp hb
      rw [hkind] at hd
      cases hd
    · obtain ⟨place, hplace, rfl⟩ := List.mem_mapIdx.mp hb
      rw [hsnippet] at hd
      exact ⟨_, List.getElem_mem hplace, hd⟩
  · rintro ⟨s, hs, hd⟩
    obtain ⟨place, hplace, rfl⟩ := List.getElem_of_mem hs
    have hb : Builtin.snippet (e.snippets[place].toSnippet place) ∈ e.builtins :=
      List.mem_append_right _ (List.mem_mapIdx.mpr ⟨place, hplace, rfl⟩)
    -- There are participants at all, so options were settled for this snippet, too.
    have hslot : ⟨(Builtin.snippet (e.snippets[place].toSnippet place)).emitter,
        if settings.file.shareOptions then some settings.file else none⟩ ∈
          (e.fileEmitter settings).slots := by
      rw [fileEmitter_eq]
      exact List.mem_map.mpr ⟨_, hb, rfl⟩
    obtain ⟨o, ho⟩ := Option.isSome_iff_exists.mp
      (FileEmitter.participants_ok_iff.mp ⟨ps, hps⟩ _ hslot)
    refine ⟨_, (FileEmitter.mem_participants_iff hps).mpr ⟨_, hslot, o, ho, rfl, rfl⟩, ?_⟩
    rw [hsnippet]
    exact hd

theorem mem_outerUsings_iff {ps : List Participant}
    (hps : (e.fileEmitter settings).participants spec siblings = .ok ps) {d : String} :
    d ∈ FileEmitter.contributions Emitter.outerUsings ps ↔
      d ∈ e.snippets.flatMap SnippetEntry.outerUsings :=
  mem_contributions_iff _ _ (fun k _ => by cases k <;> rfl) (fun _ _ _ => rfl) hps

theorem mem_innerUsings_iff {ps : List Participant}
    (hps : (e.fileEmitter settings).participants spec siblings = .ok ps) {d : String} :
    d ∈ FileEmitter.contributions Emitter.innerUsings ps ↔
      d ∈ e.snippets.flatMap SnippetEntry.innerUsings :=
  mem_contributions_iff _ _ (fun k _ => by cases k <;> rfl) (fun _ _ _ => rfl) hps

end TypeEntry

/-! ### Manifests -/

theorem emitting_eq_ok_iff {α : Type} {target : String} {r : Except Failure α} {a : α} :
    emitting target r = .ok a ↔ r = .ok a :=
  Outcome.mapError_eq_ok_iff

theorem emitting_eq_error_iff {α : Type} {target : String} {r : Except Failure α}
    {err : ManifestError} :
    emitting target r = .error err ↔
      ∃ failure, r = .error failure ∧ err = .emission target failure := by
  cases r with
  | error failure => simp [emitting, Except.mapError, eq_comm]
  | ok a => simp [emitting, Except.mapError]

namespace Manifest

/-- **What an entry needs to be generated**, once its manifest has passed
validation. -/
structure Emits (m : Manifest) (e : TypeEntry) : Prop where
  /-- There are options for its emitters, or it has none. -/
  options : m.options.file.shareOptions = true ∨ (e.emitters = [] ∧ e.snippets = [])
  /-- No outer using is blank. -/
  outer : ∀ d ∈ m.options.file.outerUsings ++ e.snippets.flatMap SnippetEntry.outerUsings,
    Text.isBlankText d = false
  /-- No inner using is blank, where these are looked at. -/
  inner : e.ns = none ∨
    ∀ d ∈ m.options.file.innerUsings ++ e.snippets.flatMap SnippetEntry.innerUsings,
      Text.isBlankText d = false

theorem emits_iff {m : Manifest} {e : TypeEntry} : m.Emits e ↔
    (m.options.file.shareOptions = true ∨ (e.emitters = [] ∧ e.snippets = [])) ∧
    (∀ d ∈ m.options.file.outerUsings ++ e.snippets.flatMap SnippetEntry.outerUsings,
      Text.isBlankText d = false) ∧
    (e.ns = none ∨ ∀ d ∈ m.options.file.innerUsings ++ e.snippets.flatMap SnippetEntry.innerUsings,
      Text.isBlankText d = false) :=
  ⟨fun h => ⟨h.options, h.outer, h.inner⟩, fun h => ⟨h.1, h.2.1, h.2.2⟩⟩

instance (m : Manifest) (e : TypeEntry) : Decidable (m.Emits e) :=
  decidable_of_iff _ emits_iff.symm

variable {m : Manifest} {e : TypeEntry} {settings : Settings} {siblings : Siblings}

/-- The settings of a manifest with an indentation exist, and the mark of the
assembly is all that is different about the options of the file. -/
theorem settings_ok {indent : Indent} (h : m.options.indent.indent = .ok indent) :
    ∃ settings, m.settings = .ok settings ∧
      ∃ assembly, settings.file = { m.options.file with assembly } := by
  rw [Manifest.settings, h]
  exact ⟨_, rfl, _, rfl⟩

/-- The emitters of an entry that can be declared write whatever they find. -/
theorem write_ok {spec : TypeSpec} (hdecl : e.Declarable)
    (hmembers : spec.members = e.members.map (m.memberOf e.toRef)) :
    ∀ slot ∈ (e.fileEmitter settings).slots, ∀ o w,
      ∃ w', slot.emitter.write ⟨spec, o, siblings⟩ w = .ok w' := by
  intro slot hslot o w
  obtain ⟨b, -, hemitter⟩ := TypeEntry.exists_builtin_of_mem_slots hslot
  rw [hemitter]
  refine Builtin.write_ok fun member hmember => ?_
  obtain ⟨entry, hentry, rfl⟩ := List.mem_map.mp (hmembers ▸ hmember)
  exact m.declaration_memberOf e.toRef (hdecl.members entry hentry)

/-- **One entry**: the file of an entry that can be declared is there when the
entry has what it needs. -/
theorem fileOf_ok_iff {assembly : Option Assembly} (hdecl : e.Declarable)
    (hfile : settings.file = { m.options.file with assembly }) :
    (∃ file, m.fileOf settings siblings e = .ok file) ↔ m.Emits e := by
  obtain ⟨spec, hspec, hne, hns, hmembers⟩ := m.specOf_of_declarable hdecl
  have hgenerate : (∃ file, m.fileOf settings siblings e = .ok file) ↔
      ∃ file, (e.fileEmitter settings).generate spec siblings = .ok file := by
    rw [fileOf, hspec, Outcome.ok_bind]
    simp only [emitting_eq_ok_iff]
  have hsettings : (e.fileEmitter settings).settings = settings := by
    rw [TypeEntry.fileEmitter_eq]
  rw [hgenerate, FileEmitter.generate_ok_iff hne (write_ok hdecl hmembers), hsettings, hns]
  have hshare : settings.file.shareOptions = m.options.file.shareOptions := by rw [hfile]
  constructor
  · rintro ⟨ps, hps, houter, hinner⟩
    have hsettled := FileEmitter.participants_ok_iff.mp ⟨ps, hps⟩
    rw [TypeEntry.settled_iff, hshare] at hsettled
    simp only [List.mem_append, TypeEntry.mem_outerUsings_iff hps,
      TypeEntry.mem_innerUsings_iff hps, hfile] at houter hinner
    constructor
    case options => exact hsettled
    case outer => exact fun d hd => houter d (List.mem_append.mp hd)
    case inner => exact hinner.imp_right fun hinner d hd => hinner d (List.mem_append.mp hd)
  · intro h
    obtain ⟨ps, hps⟩ : ∃ ps, (e.fileEmitter settings).participants spec siblings = .ok ps := by
      rw [FileEmitter.participants_ok_iff, TypeEntry.settled_iff, hshare]
      exact h.options
    simp only [List.mem_append, hfile]
    refine ⟨ps, hps, fun d hd => h.outer d ?_, h.inner.imp_right fun hinner d hd => hinner d ?_⟩
    · rw [TypeEntry.mem_outerUsings_iff hps] at hd
      exact List.mem_append.mpr hd
    · rw [TypeEntry.mem_innerUsings_iff hps] at hd
      exact List.mem_append.mpr hd

/-- The failure for an entry that can be declared is named after the entry, and
it breaks no contract. -/
theorem fileOf_error {err : ManifestError} (hdecl : e.Declarable)
    (h : m.fileOf settings siblings e = .error err) :
    err.isBroken = false ∧ ∃ failure, err = .emission e.name failure := by
  obtain ⟨spec, hspec, hne, -, hmembers⟩ := m.specOf_of_declarable hdecl
  rw [fileOf, hspec, Outcome.ok_bind] at h
  obtain ⟨failure, hfailure, rfl⟩ := emitting_eq_error_iff.mp h
  refine ⟨?_, failure, rfl⟩
  rcases FileEmitter.generate_error hne (write_ok hdecl hmembers) hfailure with ⟨name, rfl⟩ | rfl
  · rfl
  · rfl

/-- **What generation can still fail on.** After validation a manifest is
generated exactly when each of its entries has what it needs. Otherwise the
error is a failure of writing, named after the first entry that lacks something,
and no contract is broken. -/
theorem generate_of_validate {source file : String} (h : m.validate source file = .ok ()) :
    ((∃ c, m.generate = .ok c) ↔ ∀ e ∈ m.types, m.Emits e) ∧
      ∀ err, m.generate = .error err → err.isBroken = false ∧
        ∃ before e behind failure, m.types = before ++ e :: behind ∧
          (∀ b ∈ before, m.Emits b) ∧ ¬ m.Emits e ∧ err = .emission e.name failure := by
  obtain ⟨⟨indent, hindent⟩, hdecl⟩ := declarable_of_validate h
  obtain ⟨settings, hsettings, assembly, hfile⟩ := settings_ok hindent
  -- Registering a file cannot fail, so all depends on the files of the entries.
  have hgenerate : m.generate = (m.types.mapM (m.fileOf settings m.siblings)).map
      (List.foldl Collection.register .empty) := by
    rw [generate, hsettings, Outcome.ok_bind]
    exact Outcome.foldlM_eq_map_mapM _ _ _ _
  have hone : ∀ e ∈ m.types, (∃ file, m.fileOf settings m.siblings e = .ok file) ↔ m.Emits e :=
    fun e he => fileOf_ok_iff (hdecl e he) hfile
  rw [hgenerate]
  constructor
  · constructor
    · rintro ⟨c, hc⟩ e he
      obtain ⟨files, hfiles, -⟩ := Outcome.map_eq_ok_iff.mp hc
      obtain ⟨file, hfile, -⟩ := Outcome.ok_of_mem_of_mapM hfiles he
      exact (hone e he).mp ⟨file, hfile⟩
    · intro hall
      obtain ⟨files, hfiles⟩ := Outcome.mapM_ok_of_forall fun e he => (hone e he).mpr (hall e he)
      exact ⟨_, Outcome.map_eq_ok_iff.mpr ⟨files, hfiles, rfl⟩⟩
  · intro err herr
    have hfailed := Outcome.map_eq_error_iff.mp herr
    obtain ⟨before, e, behind, htypes, hbefore, he⟩ := Outcome.exists_of_mapM_eq_error hfailed
    have hmem : e ∈ m.types := by simp [htypes]
    obtain ⟨hbroken, failure, rfl⟩ := fileOf_error (hdecl e hmem) he
    refine ⟨hbroken, before, e, behind, failure, htypes, ?_, ?_, rfl⟩
    · intro b hb
      exact (hone b (by simp [htypes, hb])).mp (hbefore b hb)
    · intro hemits
      obtain ⟨file, hok⟩ := (hone e hmem).mpr hemits
      rw [he] at hok
      cases hok

/-- Two entries, the second with a blank directive: the first one is not
blamed. -/
theorem generate_of_validate_blank_using :
    let first : TypeEntry := { name := "Order", ns := some "Shop" }
    let second : TypeEntry :=
      { name := "Item", snippets := [{ text := "int x;", outerUsings := ["System", " "] }] }
    let m : Manifest := { types := [first, second] }
    m.validate "" "shop.toml" = .ok () ∧ m.Emits first ∧
      ∃ failure, m.generate = .error (.emission "Item" failure) := by
  intro first second m
  have hvalid : m.validate "" "shop.toml" = .ok () := by decide +kernel
  have hfirst : m.Emits first := by decide +kernel
  have hsecond : ¬ m.Emits second := by decide +kernel
  obtain ⟨hok, herror⟩ := generate_of_validate hvalid
  refine ⟨hvalid, hfirst, ?_⟩
  cases hm : m.generate with
  | ok c => exact absurd (hok.mp ⟨c, hm⟩ second (by simp [m])) hsecond
  | error err =>
    obtain ⟨-, before, e, behind, failure, htypes, -, he, rfl⟩ := herror err hm
    have hmem : e ∈ m.types := by simp [htypes]
    rcases List.mem_pair.mp hmem with rfl | rfl
    · exact absurd hfirst he
    · exact ⟨failure, rfl⟩

end Manifest

end SharpSource
