import SharpSource.Command.Run
import SharpSource.Proofs.Exports
import SharpSource.Proofs.RelativePaths

/-!
# What a report accounts for

A report on written files is put together from what came of each file: the paths
are divided into those that were written and those that were skipped, and taken
relative to the directory. That every file is in one of the two lists, by its
name and in the order of registration, is a matter of paths
(`Path.relativeTo?_join`) and of which files were skipped.

That is known only along a run. A file is skipped when something stands at its
path as its turn comes, so what is needed of a run is what stays while it goes
on (`Disk.GrowsInto`): directories are still directories, nothing goes away, and
texts change at the targets of written files only. One file keeps this
(`Disk.ran_writeEntry`), and so does a run (`Disk.ran_writeEntries`), whatever
its files have to do with each other. Of several files with one target only the
first can be written, so a skipped file holds what it did before, or else what
that first one wrote where nothing was (`Disk.Ran.contentAt?_of_skipped`).
-/

namespace SharpSource

open SharpSource.Path (join)

namespace Disk

/-! ### Disks that grow -/

/-- The text of the file at a place. -/
def contentAt? (d : Disk) (place : Place) : Option String :=
  match d.at? place with
  | some (.file content) => some content
  | _ => none

theorem contentAt?_congr {d d' : Disk} {q : Place} (h : d'.at? q = d.at? q) :
    d'.contentAt? q = d.contentAt? q := by
  rw [contentAt?, contentAt?, h]

theorem contentAt?_of_directory {d : Disk} {q : Place} (h : d.at? q = some .directory) :
    d.contentAt? q = none := by
  rw [contentAt?, h]

theorem contentAt?_of_noFile {d : Disk} {q : Place} (h : d.NoFileAt q) : d.contentAt? q = none := by
  rw [contentAt?]
  split
  · rename_i content hfile
    exact absurd hfile (h content)
  · rfl

/-- **A disk grows** into another one when its directories are directories
still, nothing has gone away, and texts have changed at some places only. -/
structure GrowsInto (d d' : Disk) (changed : Place → Prop) : Prop where
  workingDir_eq : d'.workingDir = d.workingDir
  directory : ∀ q, d.at? q = some .directory → d'.at? q = some .directory
  isSome : ∀ q, (d.at? q).isSome → (d'.at? q).isSome
  content : ∀ q, ¬changed q → d'.contentAt? q = d.contentAt? q

namespace GrowsInto

variable {d d₁ d₂ : Disk} {changed changed' : Place → Prop}

theorem refl (d : Disk) (changed : Place → Prop) : d.GrowsInto d changed :=
  ⟨rfl, fun _ h => h, fun _ h => h, fun _ _ => rfl⟩

theorem mono (h : d.GrowsInto d₁ changed) (hsub : ∀ q, changed q → changed' q) :
    d.GrowsInto d₁ changed' :=
  ⟨h.workingDir_eq, h.directory, h.isSome, fun q hq => h.content q fun hc => hq (hsub q hc)⟩

theorem trans (h₁ : d.GrowsInto d₁ changed) (h₂ : d₁.GrowsInto d₂ changed) :
    d.GrowsInto d₂ changed where
  workingDir_eq := h₂.workingDir_eq.trans h₁.workingDir_eq
  directory q hq := h₂.directory q (h₁.directory q hq)
  isSome q hq := h₂.isSome q (h₁.isSome q hq)
  content q hq := (h₂.content q hq).trans (h₁.content q hq)

/-- Paths still start from a directory. -/
theorem root (h : d.GrowsInto d₁ changed) (hroot : d.at? d.workingDir = some .directory) :
    d₁.at? d₁.workingDir = some .directory := by
  rw [h.workingDir_eq]
  exact h.directory _ hroot

/-- A path that leads to something still does, and to the same place. -/
theorem exists? (h : d.GrowsInto d₁ changed) (hroot : d.at? d.workingDir = some .directory)
    {path : String} (hends : endsInName path = true) (hexists : d.exists? path = true) :
    d₁.exists? path = true := by
  obtain ⟨hpath, hnames, hway, hsome⟩ := (exists?_eq_true_iff hroot hends).mp hexists
  refine (exists?_eq_true_iff (h.root hroot) hends).mpr ⟨hpath, hnames, fun p hp => ?_, ?_⟩
  · rw [wayTo_congr h.workingDir_eq] at hp
    exact h.directory p (hway p hp)
  · rw [target_congr h.workingDir_eq]
    exact h.isSome _ hsome

end GrowsInto

/-- **Writing a file** makes a disk grow, and changes no text but that of its
target. -/
theorem growsInto_writeFile {d : Disk} {path content : String}
    (hroot : d.at? d.workingDir = some .directory) (hends : endsInName path = true)
    (hok : (d.writeFile path content).1 = .ok ()) :
    d.GrowsInto (d.writeFile path content).2 (d.target path = ·) := by
  obtain ⟨htakes_iff, hat⟩ := @writeFile_spec d path content hroot hends
  have htakes : d.Takes path := htakes_iff.mp hok
  replace hat := hat hok
  refine ⟨workingDir_writeFile, fun q hq => ?_, fun q hq => ?_, fun q hq => ?_⟩
  · have htarget : q ≠ d.target path := fun heq => htakes.target_not_directory (heq ▸ hq)
    rw [hat, if_neg htarget, hq, ite_self]
  · rw [hat]
    split
    · rfl
    · split
      · rfl
      · exact hq
  · have htarget : q ≠ d.target path := Ne.symm hq
    by_cases hon : q ∈ d.wayTo path
    · -- A directory on the way takes the place of no file.
      rw [contentAt?_of_noFile (htakes.way q hon), contentAt?_of_directory]
      rw [hat, if_neg htarget, if_pos hon]
    · refine contentAt?_congr ?_
      rw [hat, if_neg htarget, if_neg hon]

/-- A file that was written is there by its path, with its text. -/
theorem exists?_writeFile {d : Disk} {path content : String}
    (hroot : d.at? d.workingDir = some .directory) (hends : endsInName path = true)
    (hok : (d.writeFile path content).1 = .ok ()) :
    (d.writeFile path content).2.exists? path = true ∧
      (d.writeFile path content).2.contentAt? (d.target path) = some content := by
  have hgrows := growsInto_writeFile hroot hends hok
  obtain ⟨htakes_iff, hat⟩ := @writeFile_spec d path content hroot hends
  have htakes : d.Takes path := htakes_iff.mp hok
  have hfile : (d.writeFile path content).2.at? (d.target path) = some (.file content) := by
    rw [hat hok, if_pos rfl]
  refine ⟨(exists?_eq_true_iff (hgrows.root hroot) hends).mpr
    ⟨htakes.is_path, htakes.names, fun p hp => ?_, ?_⟩, by rw [contentAt?, hfile]⟩
  · rw [wayTo_congr hgrows.workingDir_eq] at hp
    have htarget : p ≠ d.target path := fun heq => htakes.target_not_on_way (heq ▸ hp)
    rw [hat hok, if_neg htarget, if_pos hp]
  · rw [target_congr hgrows.workingDir_eq, hfile]
    rfl

/-- Two names with the same steps lead to the same file. -/
theorem exists?_of_steps_eq {d : Disk} {dir name name' : String}
    (hroot : d.at? d.workingDir = some .directory) (h : IsPlainName name) (h' : IsPlainName name')
    (hsteps : steps name' = steps name) (hpath : isPath (join dir name') = true)
    (hexists : d.exists? (join dir name) = true) : d.exists? (join dir name') = true := by
  obtain ⟨-, hnames, hway, hsome⟩ := (exists?_eq_true_iff hroot (endsInName_join h)).mp hexists
  have hmoves : moves (join dir name') = moves (join dir name) := by
    rw [moves_join h', moves_join h, hsteps]
  have hwayTo : d.wayTo (join dir name') = d.wayTo (join dir name) := by
    rw [wayTo_eq d dir h', wayTo_eq d dir h, hsteps]
  have htarget : d.target (join dir name') = d.target (join dir name) := by
    rw [target_eq d dir h', target_eq d dir h, hsteps]
  exact (exists?_eq_true_iff hroot (endsInName_join h')).mpr
    ⟨hpath, by rwa [hmoves], by rwa [hwayTo], by rwa [htarget]⟩

/-! ### Runs -/

/-- The result for a file, by the names that are skipped. -/
def resultOf (dir : String) (skipped : String → Bool) (f : SourceFile) : WriteResult :=
  if skipped f.name then .skipped (join dir f.name) else .written (join dir f.name)

/-- **A run over files** from a disk to another one, told by the names that it
skipped. In the end all files are there. Where files that are there are skipped,
the others were not there in the beginning, and hold their texts. -/
structure Ran (dir : String) (how : Overwrite) (fs : List SourceFile) (skipped : String → Bool)
    (d d' : Disk) : Prop where
  grows : d.GrowsInto d' fun q => ∃ f ∈ fs, skipped f.name = false ∧ d.target (join dir f.name) = q
  exists_after : ∀ f ∈ fs, d'.exists? (join dir f.name) = true
  of_skipped : ∀ f ∈ fs, skipped f.name = true → how = .ifMissing
  of_written : how = .ifMissing → ∀ f ∈ fs, skipped f.name = false →
    d.exists? (join dir f.name) = false ∧
      d'.contentAt? (d.target (join dir f.name)) = some f.content

/-- Whether a run over files skips a name: whether its file is there as its turn
comes. -/
def skipsInTurn (dir : String) (how : Overwrite) : List SourceFile → Disk → String → Bool
  | [], _, _ => false
  | f :: fs, d, name =>
    if name = f.name then d.skips dir how f
    else skipsInTurn dir how fs (d.writeEntry dir how f).2 name

section

variable {dir : String} {how : Overwrite} {d d₁ d₂ : Disk} {f : SourceFile} {fs : List SourceFile}
  {skipped skipped' : String → Bool}

theorem Ran.congr (h : Ran dir how fs skipped d d₁)
    (hsame : ∀ f ∈ fs, skipped' f.name = skipped f.name) : Ran dir how fs skipped' d d₁ where
  grows := h.grows.mono fun _ ⟨f, hf, hwritten, hq⟩ => ⟨f, hf, (hsame f hf).trans hwritten, hq⟩
  exists_after := h.exists_after
  of_skipped f hf hskip := h.of_skipped f hf ((hsame f hf).symm.trans hskip)
  of_written hhow f hf hwritten := h.of_written hhow f hf ((hsame f hf).symm.trans hwritten)

/-- The path of each file is one. -/
theorem Ran.isPath (h : Ran dir how fs skipped d d₁) (hroot : d.at? d.workingDir = some .directory)
    (hf : f ∈ fs) (hname : IsPlainName f.name) : isPath (join dir f.name) = true :=
  ((exists?_eq_true_iff (h.grows.root hroot) (endsInName_join hname)).mp (h.exists_after f hf)).1

/-- Runs follow one another. -/
theorem Ran.cons (h₁ : Ran dir how [f] skipped d d₁) (h₂ : Ran dir how fs skipped d₁ d₂)
    (hroot : d.at? d.workingDir = some .directory)
    (hnames : ∀ g ∈ f :: fs, IsPlainName g.name) : Ran dir how (f :: fs) skipped d d₂ := by
  have hgrows₁ := h₁.grows.mono fun q ⟨g, hg, hrest⟩ =>
    (⟨g, List.mem_cons.mpr (.inl (List.mem_singleton.mp hg)), hrest⟩ :
      ∃ g ∈ f :: fs, skipped g.name = false ∧ d.target (join dir g.name) = q)
  have hgrows₂ := h₂.grows.mono fun q ⟨g, hg, hwritten, hq⟩ =>
    (⟨g, List.mem_cons_of_mem f hg, hwritten,
        (target_congr hgrows₁.workingDir_eq _).symm.trans hq⟩ :
      ∃ g ∈ f :: fs, skipped g.name = false ∧ d.target (join dir g.name) = q)
  have hroot₁ := hgrows₁.root hroot
  have hlast : d₂.exists? (join dir f.name) = true :=
    hgrows₂.exists? hroot₁ (endsInName_join (hnames f (List.mem_cons_self ..)))
      (h₁.exists_after f (List.mem_singleton_self f))
  refine ⟨hgrows₁.trans hgrows₂, List.forall_mem_cons.mpr ⟨hlast, h₂.exists_after⟩,
    List.forall_mem_cons.mpr ⟨h₁.of_skipped f (List.mem_singleton_self f), h₂.of_skipped⟩,
    fun hhow => List.forall_mem_cons.mpr ⟨fun hwritten => ?_, fun g hg hwritten => ?_⟩⟩
  · obtain ⟨hmissing, hcontent⟩ := h₁.of_written hhow f (List.mem_singleton_self f) hwritten
    refine ⟨hmissing, ?_⟩
    rw [h₂.grows.content _ ?_, hcontent]
    -- Another file with this target would be there already, and be skipped.
    rintro ⟨g, hg, hwritten', htarget⟩
    have hf' := hnames f (List.mem_cons_self ..)
    have hg' := hnames g (List.mem_cons_of_mem f hg)
    rw [target_congr hgrows₁.workingDir_eq] at htarget
    have hexists := exists?_of_steps_eq hroot₁ hf' hg' (steps_eq_of_target_eq hf' hg' htarget)
      (h₂.isPath hroot₁ hg hg') (h₁.exists_after f (List.mem_singleton_self f))
    rw [(h₂.of_written hhow g hg hwritten').1] at hexists
    cases hexists
  · obtain ⟨hmissing, hcontent⟩ := h₂.of_written hhow g hg hwritten
    rw [target_congr hgrows₁.workingDir_eq] at hcontent
    refine ⟨?_, hcontent⟩
    -- What was there before the first file would be there behind it.
    by_contra hthere
    have hexists := hgrows₁.exists? hroot (endsInName_join (hnames g (List.mem_cons_of_mem f hg)))
      (by simpa using hthere)
    rw [hmissing] at hexists
    cases hexists

/-- **One file** is skipped where it is there, or else written. -/
theorem ran_writeEntry {result : WriteResult} (hroot : d.at? d.workingDir = some .directory)
    (hname : IsPlainName f.name) (hok : (d.writeEntry dir how f).1 = .ok result) :
    result = resultOf dir (fun _ => d.skips dir how f) f ∧
      Ran dir how [f] (fun _ => d.skips dir how f) d (d.writeEntry dir how f).2 := by
  have hends : endsInName (join dir f.name) = true := endsInName_join hname
  cases hskip : d.skips dir how f with
  | true =>
    have hthere : how = .ifMissing ∧ d.exists? (join dir f.name) = true := by
      simpa [skips] using hskip
    rw [writeEntry, if_pos hthere] at hok ⊢
    exact ⟨(Except.ok.inj hok).symm, .refl d _, by simpa using hthere.2, by simpa using hthere.1,
      by simp⟩
  | false =>
    have hmissing : ¬(how = .ifMissing ∧ d.exists? (join dir f.name) = true) := by
      simpa [skips] using hskip
    rw [writeEntry, if_neg hmissing] at hok ⊢
    obtain ⟨⟨⟩, hwritten, rfl⟩ := Outcome.map_eq_ok_iff.mp hok
    obtain ⟨hexists, hcontent⟩ := exists?_writeFile hroot hends hwritten
    refine ⟨rfl, (growsInto_writeFile hroot hends hwritten).mono (by simp), by simpa using hexists,
      by simp, fun hhow => ?_⟩
    simpa [hcontent] using fun hthere => hmissing ⟨hhow, hthere⟩

theorem writeEntries_cons_ok {results : List WriteResult}
    (h : (writeEntries dir how (f :: fs) d).1 = .ok results) :
    ∃ result rest, (d.writeEntry dir how f).1 = .ok result ∧
      (writeEntries dir how fs (d.writeEntry dir how f).2).1 = .ok rest ∧ results = result :: rest ∧
      (writeEntries dir how (f :: fs) d).2 =
        (writeEntries dir how fs (d.writeEntry dir how f).2).2 := by
  rw [writeEntries] at h ⊢
  cases hentry : d.writeEntry dir how f with
  | mk outcome d₁ =>
    rw [hentry] at h
    cases outcome with
    | error e => cases h
    | ok result =>
      obtain ⟨rest, hrest, rfl⟩ := Outcome.map_eq_ok_iff.mp h
      exact ⟨result, rest, rfl, hrest, rfl, rfl⟩

/-- **A run writes or skips each of its files**, one after the other. -/
theorem ran_writeEntries {results : List WriteResult} (hroot : d.at? d.workingDir = some .directory)
    (hnames : ∀ f ∈ fs, IsPlainName f.name) (hnodup : (fs.map (·.name)).Nodup)
    (hok : (writeEntries dir how fs d).1 = .ok results) :
    results = fs.map (resultOf dir (skipsInTurn dir how fs d)) ∧
      Ran dir how fs (skipsInTurn dir how fs d) d (writeEntries dir how fs d).2 := by
  induction fs generalizing d results with
  | nil =>
    cases hok
    exact ⟨rfl, .refl d _, by simp, by simp, by simp⟩
  | cons f fs ih =>
    obtain ⟨result, rest, hfirst, hrest, rfl, hafter⟩ := writeEntries_cons_ok hok
    rw [List.map_cons, List.nodup_cons] at hnodup
    obtain ⟨rfl, hran₁⟩ := ran_writeEntry hroot (hnames f (List.mem_cons_self ..)) hfirst
    obtain ⟨rfl, hran₂⟩ := ih (hran₁.grows.root hroot)
      (fun g hg => hnames g (List.mem_cons_of_mem f hg)) hnodup.2 hrest
    -- The first name is not among the others, which are skipped in their turn.
    have hself : skipsInTurn dir how (f :: fs) d f.name = d.skips dir how f := if_pos rfl
    have hothers : ∀ g ∈ fs, skipsInTurn dir how (f :: fs) d g.name =
        skipsInTurn dir how fs (d.writeEntry dir how f).2 g.name := fun g hg =>
      if_neg fun heq : g.name = f.name => hnodup.1 (heq ▸ List.mem_map_of_mem hg)
    refine ⟨?_, ?_⟩
    · rw [List.map_cons, resultOf, resultOf, hself]
      refine congrArg _ (List.map_congr_left fun g hg => ?_)
      rw [resultOf, resultOf, hothers g hg]
    · rw [hafter]
      exact (hran₁.congr (by simpa using hself)).cons (hran₂.congr hothers) hroot hnames

/-- A file is reached by its path in the end. -/
theorem Ran.resolve? (h : Ran dir how fs skipped d d₁)
    (hroot : d.at? d.workingDir = some .directory) (hname : IsPlainName f.name) (hf : f ∈ fs) :
    d₁.resolve? (join dir f.name) = some (d.target (join dir f.name)) := by
  rw [← target_congr h.grows.workingDir_eq]
  exact resolve?_of_exists? (h.grows.root hroot) (endsInName_join hname) (h.exists_after f hf)

/-- **A skipped file holds what it did before.** Only another name with the same
steps could have had its file written there, and only where nothing was before;
then this is the file that is there. -/
theorem Ran.contentAt?_of_skipped (h : Ran dir how fs skipped d d₁)
    (hroot : d.at? d.workingDir = some .directory) (hnames : ∀ g ∈ fs, IsPlainName g.name)
    (hf : f ∈ fs) (hskip : skipped f.name = true) :
    d₁.contentAt? (d.target (join dir f.name)) = d.contentAt? (d.target (join dir f.name)) ∨
      d.exists? (join dir f.name) = false ∧
        ∃ g ∈ fs, g.name ≠ f.name ∧ steps g.name = steps f.name ∧ skipped g.name = false ∧
          d₁.contentAt? (d.target (join dir f.name)) = some g.content := by
  by_cases hchanged : ∃ g ∈ fs, skipped g.name = false ∧
      d.target (join dir g.name) = d.target (join dir f.name)
  · obtain ⟨g, hg, hwritten, htarget⟩ := hchanged
    have hsteps := steps_eq_of_target_eq (hnames f hf) (hnames g hg) htarget
    obtain ⟨hmissing, hcontent⟩ := h.of_written (h.of_skipped f hf hskip) g hg hwritten
    refine .inr ⟨?_, g, hg, fun heq => ?_, hsteps, hwritten, htarget ▸ hcontent⟩
    · -- The other path leads the same way, and nothing was there.
      by_contra hthere
      have hexists := exists?_of_steps_eq hroot (hnames f hf) (hnames g hg) hsteps
        (h.isPath hroot hg (hnames g hg)) (by simpa using hthere)
      rw [hmissing] at hexists
      cases hexists
    · rw [heq, hskip] at hwritten
      cases hwritten
  · exact .inl (h.grows.content _ hchanged)

end

end Disk

/-! ### Reports -/

namespace Report

open Disk (IsPlainName resultOf)

/-- The results for files come apart into two lists of their names. -/
theorem ofResults_map_resultOf {dir : String} {fs : List SourceFile} (skipped : String → Bool)
    (hnames : ∀ f ∈ fs, IsPlainName f.name) :
    Outcome.ofResults dir (fs.map (resultOf dir skipped)) =
      .done dir ((fs.map (·.name)).filter fun name => !skipped name)
        ((fs.map (·.name)).filter skipped) := by
  have hpath : ∀ f, (resultOf dir skipped f).path = join dir f.name := fun f => by
    rw [resultOf]
    split <;> rfl
  have hwritten : ∀ f, (resultOf dir skipped f).isWritten = !skipped f.name := fun f => by
    rw [resultOf]
    cases skipped f.name <;> rfl
  have hrelative : ∀ gs : List SourceFile, (∀ g ∈ gs, g ∈ fs) →
      relativePaths dir (gs.map (resultOf dir skipped)) = gs.map (·.name) := by
    intro gs hgs
    rw [relativePaths, List.map_map]
    refine List.map_congr_left fun g hg => ?_
    show (Path.relativeTo? dir (resultOf dir skipped g).path).getD _ = _
    rw [hpath, Path.relativeTo?_join (hnames g (hgs g hg)) dir]
    rfl
  have hfilter : ∀ p : String → Bool, ∀ q : WriteResult → Bool,
      (∀ f, q (resultOf dir skipped f) = p f.name) →
      relativePaths dir ((fs.map (resultOf dir skipped)).filter q) =
        (fs.map (·.name)).filter p := by
    intro p q hpq
    rw [List.filter_map, List.filter_map]
    have hsame : fs.filter (q ∘ resultOf dir skipped) = fs.filter (p ∘ (·.name)) :=
      List.filter_congr fun f _ => hpq f
    rw [hsame]
    exact hrelative _ fun g hg => (List.mem_filter.mp hg).1
  rw [Outcome.ofResults, hfilter (fun name => !skipped name) (·.isWritten) hwritten,
    hfilter skipped (!·.isWritten) fun f => by rw [hwritten, Bool.not_not]]

end Report

namespace Command

open Disk (IsPlainName Ran skipsInTurn resultOf)

theorem names_files (c : Collection) : c.files.map (·.name) = c.names := by
  rw [Collection.files, List.map_map]
  rfl

/-- **Whatever the schedule**, a bake that writes is a run over the files, and
its report is that of the files in the order of registration. -/
theorem exists_ran_of_bakeBy {schedule : List SourceFile} {a : Arguments} {c : Collection}
    {d : Disk} {report : Report.Baked} (hroot : d.at? d.workingDir = some .directory)
    (hnames : ∀ name ∈ c.names, IsPlainName name) (hschedule : schedule.Perm c.files)
    (hwrites : Switch.dryRun ∉ a.switches) (hok : (bakeBy schedule a c d).1 = .ok report) :
    ∃ skipped fs, fs.Perm c.files ∧
      report = ⟨c.size, .ofResults a.outputDir (c.files.map (resultOf a.outputDir skipped))⟩ ∧
      Ran a.outputDir a.overwrite fs skipped d (bakeBy schedule a c d).2 := by
  have hplain : ∀ f ∈ c.files, IsPlainName f.name := fun f hf =>
    hnames _ (names_files c ▸ List.mem_map_of_mem (f := (·.name)) hf)
  have hnodup : (c.files.map (·.name)).Nodup := names_files c ▸ c.nodup
  have hfiles : ∀ {fs : List SourceFile}, fs.Perm c.files →
      (∀ f ∈ fs, IsPlainName f.name) ∧ (fs.map (·.name)).Nodup := fun hperm =>
    ⟨fun f hf => hplain f (hperm.mem_iff.mp hf), (hperm.map _).nodup_iff.mpr hnodup⟩
  rw [bakeBy, if_neg hwrites] at hok ⊢
  by_cases hparallel : Switch.parallel ∈ a.switches
  · rw [if_pos hparallel] at hok ⊢
    obtain ⟨listed, hlisted, rfl⟩ := Outcome.map_eq_ok_iff.mp hok
    obtain ⟨results, hresults, rfl⟩ := Outcome.map_eq_ok_iff.mp hlisted
    obtain ⟨rfl, hran⟩ :=
      Disk.ran_writeEntries hroot (hfiles hschedule).1 (hfiles hschedule).2 hresults
    refine ⟨_, schedule, hschedule, ?_, hran⟩
    rw [Collection.relisted_of_nodup hnodup hschedule]
  · rw [if_neg hparallel] at hok ⊢
    obtain ⟨results, hresults, rfl⟩ := Outcome.map_eq_ok_iff.mp hok
    obtain ⟨rfl, hran⟩ := Disk.ran_writeEntries hroot hplain hnodup hresults
    exact ⟨_, c.files, .refl _, rfl, hran⟩

/-- **A report accounts for every file once.** It counts the entries. Without
writing it shows each with its text, in order, and the disk stays as it is.
After writing, by whatever schedule, the names of the collection are divided
into those that were written and those that were skipped, both in their order
and as the paths from the directory. None is skipped unless files that are there
are to be left alone. Where a skipped path leads to, the disk holds the text
that it did before. If nothing was there before, it may hold the text of another
name with the same steps, which was written. -/
theorem bakeBy_accounts {schedule : List SourceFile} {a : Arguments} {c : Collection} {d : Disk}
    (htree : d.IsTree) (hnames : ∀ name ∈ c.names, IsPlainName name)
    (hschedule : schedule.Perm c.files) :
    let after := (bakeBy schedule a c d).2
    (Switch.dryRun ∈ a.switches → ∃ shown : List SourceFile,
      (bakeBy schedule a c d).1 = .ok ⟨c.entries.length, .preview shown⟩ ∧
      shown.map (fun f => (f.name, f.content)) = c.entries ∧ after = d) ∧
    ∀ report, Switch.dryRun ∉ a.switches → (bakeBy schedule a c d).1 = .ok report →
      ∃ skipped : String → Bool,
        report = ⟨c.entries.length, .done a.outputDir (c.names.filter fun name => !skipped name)
          (c.names.filter skipped)⟩ ∧
        (Switch.skipExisting ∉ a.switches → c.names.filter skipped = []) ∧
        ∀ name ∈ c.names, skipped name = true →
          ∃ place, after.resolve? (join a.outputDir name) = some place ∧
            (after.contentAt? place = d.contentAt? place ∨
              d.exists? (join a.outputDir name) = false ∧ ∃ other ∈ c.entries, other.1 ≠ name ∧
                Disk.steps other.1 = Disk.steps name ∧ skipped other.1 = false ∧
                after.contentAt? place = some other.2) := by
  intro after
  refine ⟨fun hdry => ⟨c.files, ?_, ?_, ?_⟩, fun report hwrites hok => ?_⟩
  · rw [bakeBy, if_pos hdry]
    rfl
  · rw [Collection.files, List.map_map]
    exact List.map_id _
  · show (bakeBy schedule a c d).2 = d
    rw [bakeBy, if_pos hdry]
  · obtain ⟨skipped, fs, hperm, rfl, hran⟩ :=
      exists_ran_of_bakeBy htree.root hnames hschedule hwrites hok
    have hmem : ∀ {name}, name ∈ c.names ↔ ∃ f ∈ fs, f.name = name := by
      intro name
      rw [← names_files, List.mem_map]
      simp only [hperm.mem_iff]
    have hplain : ∀ f ∈ fs, IsPlainName f.name := fun f hf => hnames _ (hmem.mpr ⟨f, hf, rfl⟩)
    refine ⟨skipped, ?_, fun halways => ?_, fun name hname hskip => ?_⟩
    · rw [Report.ofResults_map_resultOf skipped fun f hf => hplain f (hperm.mem_iff.mpr hf),
        names_files]
      rfl
    · rw [List.filter_eq_nil_iff]
      intro name hname hskip
      obtain ⟨f, hf, rfl⟩ := hmem.mp hname
      have hhow := hran.of_skipped f hf hskip
      rw [Arguments.overwrite, if_neg halways] at hhow
      cases hhow
    · obtain ⟨f, hf, rfl⟩ := hmem.mp hname
      refine ⟨_, hran.resolve? htree.root (hplain f hf) hf, ?_⟩
      refine (hran.contentAt?_of_skipped htree.root hplain hf hskip).imp_right ?_
      rintro ⟨hmissing, g, hg, hother⟩
      obtain ⟨e, he, rfl⟩ := List.mem_map.mp (hperm.mem_iff.mp hg)
      exact ⟨hmissing, e, he, hother⟩

/-- Three files, one of them there already, written from the last to the
first. -/
theorem bakeBy_accounts_backwards :
    let c : Collection := ⟨[("Models/A.cs", "a"), ("Models/B.cs", "b"), ("C.cs", "c")], by decide⟩
    let d : Disk := .ofFiles ["home"] [("gen/Models/B.cs", "old")]
    let a : Arguments := { switches := [.parallel, .skipExisting], output := some "gen/" }
    let baked := bakeBy c.files.reverse a c d
    baked.1 = .ok ⟨3, .done "gen/" ["Models/A.cs", "C.cs"] ["Models/B.cs"]⟩ ∧
    ∃ place, baked.2.resolve? "gen/Models/B.cs" = some place ∧
      baked.2.contentAt? place = d.contentAt? place := by
  intro c d a baked
  have hbaked : baked.1 = .ok ⟨3, .done "gen/" ["Models/A.cs", "C.cs"] ["Models/B.cs"]⟩ := by
    decide +kernel
  obtain ⟨-, haccounts⟩ := @bakeBy_accounts c.files.reverse a c d (by decide +kernel)
    (by decide +kernel) (List.reverse_perm _)
  obtain ⟨skipped, hreport, -, hcontent⟩ := haccounts _ (by decide) hbaked
  have hskipped : ["Models/B.cs"] = c.names.filter skipped := by
    injection hreport with _ houtcome
    injection houtcome
  have hmem : "Models/B.cs" ∈ c.names.filter skipped := hskipped ▸ List.mem_singleton_self _
  obtain ⟨place, hplace, hsame | ⟨hmissing, -⟩⟩ := hcontent "Models/B.cs" (by decide)
    (List.mem_filter.mp hmem).2
  · have hjoin : join a.outputDir "Models/B.cs" = "gen/Models/B.cs" := by decide
    exact ⟨hbaked, place, hjoin ▸ hplace, hsame⟩
  · exact absurd hmissing (by decide +kernel)

/-- The second of two names with the same steps is skipped, though nothing was
there before the bake, and its path then leads to the text of the first. -/
theorem bakeBy_skips_path_it_wrote :
    let c : Collection := ⟨[("a/b", "1"), ("a//b", "2")], by decide⟩
    let d : Disk := .ofFiles ["home"] []
    let a : Arguments := { switches := [.skipExisting], output := some "gen" }
    let baked := bakeBy c.files a c d
    (d.IsTree ∧ ∀ name ∈ c.names, IsPlainName name) ∧
    baked.1 = .ok ⟨2, .done "gen" ["a/b"] ["a//b"]⟩ ∧
    d.exists? "gen/a//b" = false ∧
    ∃ place, baked.2.resolve? "gen/a//b" = some place ∧
      d.contentAt? place = none ∧ baked.2.contentAt? place = some "1" := by
  intro c d a baked
  refine ⟨⟨by decide +kernel, by decide +kernel⟩, by decide +kernel, by decide +kernel,
    ["home", "gen", "a", "b"], by decide +kernel, by decide +kernel, by decide +kernel⟩

end Command

end SharpSource
