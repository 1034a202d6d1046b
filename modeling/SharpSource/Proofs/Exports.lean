import Mathlib.Data.List.Nodup
import Mathlib.Data.List.Pairwise
import SharpSource.Proofs.Outcome
import SharpSource.Proofs.Walks

/-!
# Exporting in any order

Files of one collection share directories, so each of them finds a disk that
others have changed already. That the order does not matter has two sides.

Whether a file can be written depends on the files and directories that others
have left, but all together the conditions say something about every two files
(`Disk.Fits`), and what stands on the disk afterwards is said place by place
from the files that were written (`Disk.After`). Neither knows an order, and a
run succeeds exactly when its files fit (`Disk.goesThrough`).

Whether a file is skipped is asked when its turn comes, and there the order
does matter: a directory that another file has made can bring to light what was
there all the time, behind two dots (`Collection.exportBy_order_matters`). This
is the only way. Below a directory that goes up inside of the disk only
(`Disk.GoesUpInside`) no file changes whether there is another one
(`Disk.exists?_after`), and any order gives the same results and the same disk
(`Collection.exportBy_any_order`).
-/

namespace SharpSource

open SharpSource.Path (join)

/-! ### Collections of files -/

/-- Neither of two files has a name that is the other's or a directory of it. -/
def SourceFile.Apart (f g : SourceFile) : Prop :=
  ¬Disk.steps f.name <+: Disk.steps g.name ∧ ¬Disk.steps g.name <+: Disk.steps f.name

theorem SourceFile.Apart.symm {f g : SourceFile} (h : f.Apart g) : g.Apart f :=
  ⟨h.2, h.1⟩

instance : Std.Symm SourceFile.Apart :=
  ⟨fun _ _ => SourceFile.Apart.symm⟩

instance (f g : SourceFile) : Decidable (f.Apart g) :=
  inferInstanceAs (Decidable (_ ∧ _))

namespace Disk

/-! ### Trees -/

/-- **A disk is a tree**: what stands somewhere stands in a directory, and paths
start from one. -/
structure IsTree (d : Disk) : Prop where
  root : d.at? d.workingDir = some .directory
  parent : ∀ place name, (d.at? (place ++ [name])).isSome → d.at? place = some .directory

theorem at?_eq_none {d : Disk} {place : Place} (hne : place ≠ [])
    (h : ∀ e ∈ d.nodes, e.1 ≠ place) : d.at? place = none := by
  rw [at?, if_neg hne, Entries.get?, Option.map_eq_none_iff, List.find?_eq_none]
  exact fun e he => by simpa using h e he

/-- A tree is recognized from what its nodes stand in. -/
theorem isTree_iff {d : Disk} : d.IsTree ↔ d.at? d.workingDir = some .directory ∧
    ∀ e ∈ d.nodes, e.1 ≠ [] → d.at? e.1.dropLast = some .directory := by
  constructor
  · refine fun h => ⟨h.root, fun e he hne => ?_⟩
    have hsplit := List.dropLast_concat_getLast hne
    refine h.parent _ (e.1.getLast hne) ?_
    rw [hsplit, at?, if_neg hne, Entries.get?, Option.isSome_map, List.find?_isSome]
    exact ⟨e, he, by simp⟩
  · rintro ⟨hroot, hnodes⟩
    refine ⟨hroot, fun place name hsome => ?_⟩
    by_contra hparent
    have hnone : d.at? (place ++ [name]) = none := by
      refine at?_eq_none (by simp) fun e he heq => hparent ?_
      have habove := hnodes e he (by simp [heq])
      rwa [heq, List.dropLast_concat] at habove
    rw [hnone] at hsome
    cases hsome

instance (d : Disk) : Decidable d.IsTree :=
  decidable_of_iff' _ isTree_iff

/-- Above anything that is there are directories. -/
theorem IsTree.directory_above {d : Disk} (h : d.IsTree) {place : Place} {names : List String}
    (hne : names ≠ []) (hsome : (d.at? (place ++ names)).isSome) :
    d.at? place = some .directory := by
  induction names generalizing place with
  | nil => exact absurd rfl hne
  | cons name names ih =>
    refine h.parent place name ?_
    rw [List.append_cons] at hsome
    by_cases hnames : names = []
    · rwa [hnames, List.append_nil] at hsome
    · rw [ih hnames hsome]
      rfl

/-! ### Files that fit -/

section

variable (dir : String) (d : Disk)

/-- **Files fit** on a disk when it takes each of them and none has its target
on the way to another. -/
structure Fits (fs : List SourceFile) : Prop where
  takes : ∀ f ∈ fs, d.Takes (join dir f.name)
  apart : ∀ f ∈ fs, ∀ g ∈ fs, d.target (join dir f.name) ∉ d.wayTo (join dir g.name)

/-- **What a disk has become** after some files were written, in whatever order:
the files stand at their targets, there are directories on the ways, and
everything else is as it was. -/
structure After (fs : List SourceFile) (d' : Disk) : Prop where
  workingDir_eq : d'.workingDir = d.workingDir
  file : ∀ f ∈ fs, d'.at? (d.target (join dir f.name)) = some (.file f.content)
  way : ∀ f ∈ fs, ∀ p ∈ d.wayTo (join dir f.name), d'.at? p = some .directory
  rest : ∀ q, (∀ f ∈ fs, q ≠ d.target (join dir f.name) ∧ q ∉ d.wayTo (join dir f.name)) →
    d'.at? q = d.at? q

end

section

variable {dir : String} {d d' : Disk} {fs : List SourceFile} {f : SourceFile}

/-- What stands at a place afterwards, by what the files have to do with it. -/
theorem After.cases (h : After dir d fs d') (q : Place) :
    (∃ f ∈ fs, q = d.target (join dir f.name) ∧ d'.at? q = some (.file f.content)) ∨
    (∃ f ∈ fs, q ∈ d.wayTo (join dir f.name) ∧ d'.at? q = some .directory) ∨
    d'.at? q = d.at? q := by
  by_cases htarget : ∃ f ∈ fs, q = d.target (join dir f.name)
  · obtain ⟨f, hf, rfl⟩ := htarget
    exact .inl ⟨f, hf, rfl, h.file f hf⟩
  by_cases hway : ∃ f ∈ fs, q ∈ d.wayTo (join dir f.name)
  · obtain ⟨f, hf, hq⟩ := hway
    exact .inr (.inl ⟨f, hf, hq, h.way f hf q hq⟩)
  · refine .inr (.inr (h.rest q fun f hf =>
      ⟨fun hq => htarget ⟨f, hf, hq⟩, fun hq => hway ⟨f, hf, hq⟩⟩))

/-- **What stood before still stands**, unless a file has its target there: on a
way there were directories at most. -/
theorem After.at?_of_some (h : After dir d fs d') (hfits : Fits dir d fs) {q : Place} {node : Node}
    (hq : d.at? q = some node) :
    d'.at? q = some node ∨ ∃ f ∈ fs, q = d.target (join dir f.name) := by
  rcases h.cases q with ⟨f, hf, htarget, -⟩ | ⟨f, hf, hon, hat⟩ | hat
  · exact .inr ⟨f, hf, htarget⟩
  · cases node with
    | directory => exact .inl hat
    | file content => exact absurd hq ((hfits.takes f hf).way q hon content)
  · exact .inl (hat.trans hq)

/-- Directories stay. -/
theorem After.directory (h : After dir d fs d') (hfits : Fits dir d fs) {q : Place}
    (hq : d.at? q = some .directory) : d'.at? q = some .directory := by
  rcases h.at?_of_some hfits hq with hstill | ⟨f, hf, rfl⟩
  · exact hstill
  · exact absurd hq (hfits.takes f hf).target_not_directory

/-- Paths still start from a directory. -/
theorem After.root (h : After dir d fs d') (hfits : Fits dir d fs)
    (hroot : d.at? d.workingDir = some .directory) : d'.at? d'.workingDir = some .directory := by
  rw [h.workingDir_eq]
  exact h.directory hfits hroot

/-- Nothing goes away. -/
theorem After.isSome (h : After dir d fs d') {q : Place} (hq : (d.at? q).isSome) :
    (d'.at? q).isSome := by
  rcases h.cases q with ⟨f, -, -, hat⟩ | ⟨f, -, -, hat⟩ | hat
  · rw [hat]
    rfl
  · rw [hat]
    rfl
  · rwa [hat]

/-- A file that can be written now could have been written before, and is in the
way of none of the others, nor they in its way. -/
theorem After.takes_before (h : After dir d fs d') (hfits : Fits dir d fs) {path : String}
    (htakes : d'.Takes path) : d.Takes path ∧ ∀ g ∈ fs,
      d.target path ∉ d.wayTo (join dir g.name) ∧ d.target (join dir g.name) ∉ d.wayTo path := by
  obtain ⟨hpath, hnames, hway, hnotdir, hmet⟩ := htakes
  rw [target_congr h.workingDir_eq] at hnotdir hmet
  rw [wayTo_congr h.workingDir_eq] at hway hmet
  refine ⟨⟨hpath, hnames, fun p hp content hfile => ?_, fun hdir => ?_, hmet⟩,
    fun g hg => ⟨fun hon => ?_, fun hon => ?_⟩⟩
  · -- Where a file was in the way before, one still is.
    rcases h.at?_of_some hfits hfile with hstill | ⟨g, hg, rfl⟩
    · exact hway p hp content hstill
    · exact hway _ hp _ (h.file g hg)
  · exact hnotdir (h.directory hfits hdir)
  · exact hnotdir (h.way g hg _ hon)
  · exact hway _ hon _ (h.file g hg)

/-- A file that could have been written before can be written now, when it is in
the way of none of the others, nor they in its way. -/
theorem After.takes (h : After dir d fs d') {path : String} (htakes : d.Takes path)
    (hapart : ∀ g ∈ fs,
      d.target path ∉ d.wayTo (join dir g.name) ∧ d.target (join dir g.name) ∉ d.wayTo path) :
    d'.Takes path := by
  have htarget : d'.target path = d.target path := target_congr h.workingDir_eq path
  have hwayTo : d'.wayTo path = d.wayTo path := wayTo_congr h.workingDir_eq path
  refine ⟨htakes.is_path, htakes.names, ?_, ?_, ?_⟩
  · rw [hwayTo]
    intro p hp content hfile
    rcases h.cases p with ⟨g, hg, rfl, -⟩ | ⟨g, -, -, hat⟩ | hat
    · exact (hapart g hg).2 hp
    · rw [hat] at hfile
      cases hfile
    · exact htakes.way p hp content (hat.symm.trans hfile)
  · rw [htarget]
    intro hdir
    rcases h.cases (d.target path) with ⟨g, -, -, hat⟩ | ⟨g, hg, hon, -⟩ | hat
    · rw [hat] at hdir
      cases hdir
    · exact (hapart g hg).1 hon
    · exact htakes.target_not_directory (hat.symm.trans hdir)
  · rw [htarget, hwayTo]
    exact htakes.target_not_on_way

/-- **Whether a file can be written later** is a matter of the disk before and
of every file that was written since. -/
theorem takes_after_iff (h : After dir d fs d') (hfits : Fits dir d fs) (path : String) :
    d'.Takes path ↔ d.Takes path ∧ ∀ g ∈ fs,
      d.target path ∉ d.wayTo (join dir g.name) ∧ d.target (join dir g.name) ∉ d.wayTo path :=
  ⟨h.takes_before hfits, fun ⟨htakes, hapart⟩ => h.takes htakes hapart⟩

/-- **One more file.** Where a disk has become what some files make of it,
writing another one makes of it what all of them do. -/
theorem After.write (h : After dir d fs d') (hroot : d'.at? d'.workingDir = some .directory)
    (hname : IsPlainName f.name) (htakes : d'.Takes (join dir f.name))
    (hapart : ∀ g ∈ fs, d.target (join dir g.name) ∉ d.wayTo (join dir f.name) ∧
      d.target (join dir f.name) ∉ d.wayTo (join dir g.name) ∧
      d.target (join dir g.name) ≠ d.target (join dir f.name)) :
    After dir d (fs ++ [f]) (d'.writeFile (join dir f.name) f.content).2 := by
  obtain ⟨hok, hat⟩ := @writeFile_spec d' _ f.content hroot (endsInName_join hname)
  replace hat := hat (hok.mpr htakes)
  have hmet := htakes.target_not_on_way
  rw [target_congr h.workingDir_eq, wayTo_congr h.workingDir_eq] at hat hmet
  refine ⟨workingDir_writeFile.trans h.workingDir_eq, fun g hg => ?_, fun g hg p hp => ?_,
    fun q hq => ?_⟩
  · rw [hat]
    rcases List.mem_append.mp hg with hg | hg
    · obtain ⟨hway, -, htarget⟩ := hapart g hg
      rw [if_neg htarget, if_neg hway, h.file g hg]
    · rw [List.mem_singleton.mp hg, if_pos rfl]
  · rw [hat]
    rcases List.mem_append.mp hg with hg | hg
    · have htarget : p ≠ d.target (join dir f.name) := fun heq => (hapart g hg).2.1 (heq ▸ hp)
      rw [if_neg htarget, h.way g hg p hp, ite_self]
    · rw [List.mem_singleton.mp hg] at hp
      have htarget : p ≠ d.target (join dir f.name) := fun heq => hmet (heq ▸ hp)
      rw [if_neg htarget, if_pos hp]
  · obtain ⟨htarget, hway⟩ := hq f (by simp)
    rw [hat, if_neg htarget, if_neg hway]
    exact h.rest q fun g hg => hq g (List.mem_append_left _ hg)

end

/-! ### Names below one directory -/

theorem target_eq (d : Disk) (dir : String) {name : String} (h : IsPlainName name) :
    d.target (join dir name) = arrive (d.origin dir) (moves dir ++ steps name) := by
  rw [target, moves_join h, origin_join h]

theorem wayTo_eq (d : Disk) (dir : String) {name : String} (h : IsPlainName name) :
    d.wayTo (join dir name) = visited (d.origin dir) (moves dir ++ (steps name).dropLast) := by
  rw [wayTo, moves_join h, origin_join h, List.dropLast_append_of_ne_nil h.named]

/-- Names below one directory have one target only when their steps are the
same. -/
theorem steps_eq_of_target_eq {d : Disk} {dir name name' : String} (h : IsPlainName name)
    (h' : IsPlainName name') (htarget : d.target (join dir name') = d.target (join dir name)) :
    steps name' = steps name := by
  rwa [target_eq d dir h', target_eq d dir h, arrive_append, arrive_append,
    arrive_eq_append h'.plain, arrive_eq_append h.plain, List.append_right_inj] at htarget

/-- Files with names that are apart have targets of their own. -/
theorem target_ne_of_apart {d : Disk} {dir : String} {f g : SourceFile} (hf : IsPlainName f.name)
    (hg : IsPlainName g.name) (hapart : f.Apart g) :
    d.target (join dir f.name) ≠ d.target (join dir g.name) := fun htarget =>
  hapart.1 (steps_eq_of_target_eq hg hf htarget ▸ List.prefix_rfl)

/-! ### Whether a file is there -/

/-- **A directory goes up inside of a disk**: its steps lead to a directory that
is there, and from there on only down. The rest need not be there yet. -/
def GoesUpInside (d : Disk) (dir : String) : Prop :=
  ∃ there rest place, steps dir = there ++ rest ∧ ".." ∉ rest ∧
    d.walk? (d.origin dir) there = some place ∧ d.at? place = some .directory

/-- Below such a directory every place on the way is a directory already, or is
reached by going down from one that is. -/
theorem GoesUpInside.exists_down {d : Disk} {dir : String} (h : d.GoesUpInside dir) :
    ∃ place down, ∀ names : List String, (∀ n ∈ names, n ≠ "." ∧ n ≠ "..") →
      arrive (d.origin dir) (moves dir ++ names) = place ++ (down ++ names) ∧
      ∀ q ∈ visited (d.origin dir) (moves dir ++ names), d.at? q = some .directory ∨
        ∃ before, before <+: down ++ names ∧ q = place ++ before := by
  obtain ⟨there, rest, place, hsteps, hup, hwalk, hplace⟩ := h
  have hmoves : moves dir = there.filter (· ≠ ".") ++ rest.filter (· ≠ ".") := by
    rw [moves, hsteps, List.filter_append]
  obtain ⟨harrive, -, hleft⟩ := walk?_eq_some_iff.mp (walk?_moves_of_some hwalk)
  have hdown : ∀ n ∈ rest.filter (· ≠ "."), n ≠ "." ∧ n ≠ ".." := fun n hn => by
    rw [List.mem_filter, decide_eq_true_iff] at hn
    exact ⟨hn.2, fun heq => hup (heq ▸ hn.1)⟩
  refine ⟨place, rest.filter (· ≠ "."), fun names hnames => ?_⟩
  have hplain : ∀ n ∈ rest.filter (· ≠ ".") ++ names, n ≠ "." ∧ n ≠ ".." :=
    List.forall_mem_append.mpr ⟨hdown, hnames⟩
  rw [hmoves, List.append_assoc, arrive_append, visited_append, harrive]
  refine ⟨arrive_eq_append hplain, fun q hq => ?_⟩
  rcases List.mem_append.mp hq with hq | hq
  · left
    rcases mem_visited hq with hq | rfl
    · exact hleft q hq
    · rw [harrive, hplace]
  · exact .inr (mem_visited_of_down hplain hq)

theorem exists?_eq_true_iff {d : Disk} {path : String}
    (hroot : d.at? d.workingDir = some .directory) (h : endsInName path = true) :
    d.exists? path = true ↔ isPath path = true ∧ (∀ n ∈ moves path, isName n = true) ∧
      (∀ p ∈ d.wayTo path, d.at? p = some .directory) ∧ (d.at? (d.target path)).isSome := by
  have hexists : d.exists? path = true ↔ ∃ q, d.resolve? path = some q ∧ (d.at? q).isSome := by
    rw [exists?]
    cases d.resolve? path <;> simp
  rw [hexists]
  simp only [resolve?_eq_some_iff hroot h]
  constructor
  · rintro ⟨q, ⟨hpath, rfl, hnames, hway⟩, hsome⟩
    exact ⟨hpath, hnames, hway, hsome⟩
  · rintro ⟨hpath, hnames, hway, hsome⟩
    exact ⟨_, ⟨hpath, rfl, hnames, hway⟩, hsome⟩

/-- A path to something that is there leads to its target. -/
theorem resolve?_of_exists? {d : Disk} {path : String}
    (hroot : d.at? d.workingDir = some .directory)
    (h : endsInName path = true) (hexists : d.exists? path = true) :
    d.resolve? path = some (d.target path) := by
  obtain ⟨hpath, hnames, hway, -⟩ := (exists?_eq_true_iff hroot h).mp hexists
  exact (resolve?_eq_some_iff hroot h).mpr ⟨hpath, rfl, hnames, hway⟩

section Others

variable {d d' : Disk} {dir : String} {fs : List SourceFile} {f : SourceFile}
  (hup : d.GoesUpInside dir) (hname : IsPlainName f.name)
include hup hname

/-- **Above what is there are directories**, on the whole way to it. -/
theorem GoesUpInside.way_of_isSome (htree : d.IsTree)
    (hsome : (d.at? (d.target (join dir f.name))).isSome) :
    ∀ p ∈ d.wayTo (join dir f.name), d.at? p = some .directory := by
  obtain ⟨place, down, hdown⟩ := hup.exists_down
  have hplain : ∀ n ∈ (steps f.name).dropLast, n ≠ "." ∧ n ≠ ".." := fun n hn =>
    hname.plain n ((List.dropLast_sublist _).subset hn)
  intro p hp
  rw [wayTo_eq d dir hname] at hp
  rcases (hdown _ hplain).2 p hp with hdirectory | ⟨before, ⟨rest, hrest⟩, rfl⟩
  · exact hdirectory
  · -- The place is between the directory and the target, and the disk is a tree.
    have hlast := List.dropLast_concat_getLast hname.named
    rw [target_eq d dir hname, (hdown _ hname.plain).1, ← hlast, ← List.append_assoc down, ← hrest,
      List.append_assoc before, ← List.append_assoc place] at hsome
    exact htree.directory_above (by simp) hsome

/-- The target of a file is no place where another one has put anything, so what
is there was there before. -/
theorem After.isSome_of_target (h : After dir d fs d') (hnames : ∀ g ∈ fs, IsPlainName g.name)
    (hapart : ∀ g ∈ fs, f.Apart g) (hsome : (d'.at? (d.target (join dir f.name))).isSome) :
    (d.at? (d.target (join dir f.name))).isSome := by
  obtain ⟨place, down, hdown⟩ := hup.exists_down
  rcases h.cases (d.target (join dir f.name)) with ⟨g, hg, heq, -⟩ | ⟨g, hg, hon, -⟩ | hat
  · exact absurd heq (target_ne_of_apart hname (hnames g hg) (hapart g hg))
  · have hplain : ∀ n ∈ (steps g.name).dropLast, n ≠ "." ∧ n ≠ ".." := fun n hn =>
      (hnames g hg).plain n ((List.dropLast_sublist _).subset hn)
    rw [wayTo_eq d dir (hnames g hg)] at hon
    rcases (hdown _ hplain).2 _ hon with hdirectory | ⟨before, hbefore, heq⟩
    · rw [hdirectory]
      rfl
    · rw [target_eq d dir hname, (hdown _ hname.plain).1, List.append_right_inj] at heq
      rw [← heq, List.prefix_append_right_inj] at hbefore
      exact absurd (hbefore.trans (List.dropLast_prefix _)) (hapart g hg).1
  · rwa [hat] at hsome

/-- **Writing other files does not change whether a file is there**, below a
directory that goes up inside of the disk. -/
theorem exists?_after (htree : d.IsTree) (h : After dir d fs d') (hfits : Fits dir d fs)
    (hnames : ∀ g ∈ fs, IsPlainName g.name) (hapart : ∀ g ∈ fs, f.Apart g) :
    d'.exists? (join dir f.name) = d.exists? (join dir f.name) := by
  have hends : endsInName (join dir f.name) = true := endsInName_join hname
  rw [Bool.eq_iff_iff, exists?_eq_true_iff (h.root hfits htree.root) hends,
    exists?_eq_true_iff htree.root hends, target_congr h.workingDir_eq, wayTo_congr h.workingDir_eq]
  refine and_congr_right fun _ => and_congr_right fun _ => ?_
  constructor
  · rintro ⟨-, hsome⟩
    have hbefore := h.isSome_of_target hup hname hnames hapart hsome
    exact ⟨hup.way_of_isSome hname htree hbefore, hbefore⟩
  · rintro ⟨hway, hsome⟩
    exact ⟨fun p hp => h.directory hfits (hway p hp), h.isSome hsome⟩

end Others

/-! ### Runs -/

/-- Whether a file is skipped, going by a disk. -/
def skips (d : Disk) (dir : String) (how : Overwrite) (f : SourceFile) : Bool :=
  how = .ifMissing && d.exists? (join dir f.name)

/-- The result for a file, going by a disk. -/
def verdict (d : Disk) (dir : String) (how : Overwrite) (f : SourceFile) : WriteResult :=
  if d.skips dir how f then .skipped (join dir f.name) else .written (join dir f.name)

/-- The files that are not skipped, going by a disk. -/
def unskipped (d : Disk) (dir : String) (how : Overwrite) (fs : List SourceFile) :
    List SourceFile :=
  fs.filter fun f => !d.skips dir how f

section

variable {dir : String} {how : Overwrite} {d d' : Disk} {fs done : List SourceFile} {f : SourceFile}

theorem writeEntries_cons (h : d'.skips dir how f = true) :
    writeEntries dir how (f :: fs) d' =
      let rest := writeEntries dir how fs d'
      (rest.1.map (.skipped (join dir f.name) :: ·), rest.2) := by
  have hskip : how = .ifMissing ∧ d'.exists? (join dir f.name) = true := by simpa [skips] using h
  rw [writeEntries, writeEntry, if_pos hskip]

theorem writeEntries_cons_written (h : d'.skips dir how f = false)
    (hok : (d'.writeFile (join dir f.name) f.content).1 = .ok ()) :
    writeEntries dir how (f :: fs) d' =
      let rest := writeEntries dir how fs (d'.writeFile (join dir f.name) f.content).2
      (rest.1.map (.written (join dir f.name) :: ·), rest.2) := by
  have hskip : ¬(how = .ifMissing ∧ d'.exists? (join dir f.name) = true) := by simpa [skips] using h
  have hwrite : d'.writeFile (join dir f.name) f.content =
      (.ok (), (d'.writeFile (join dir f.name) f.content).2) := Prod.ext hok rfl
  rw [writeEntries, writeEntry, if_neg hskip, hwrite]
  rfl

theorem writeEntries_cons_failed {results : List WriteResult} (h : d'.skips dir how f = false)
    (hok : (d'.writeFile (join dir f.name) f.content).1 ≠ .ok ()) :
    (writeEntries dir how (f :: fs) d').1 ≠ .ok results := by
  have hskip : ¬(how = .ifMissing ∧ d'.exists? (join dir f.name) = true) := by simpa [skips] using h
  cases houtcome : (d'.writeFile (join dir f.name) f.content).1 with
  | ok _ => exact absurd houtcome hok
  | error e =>
    have hwrite : d'.writeFile (join dir f.name) f.content =
        (.error e, (d'.writeFile (join dir f.name) f.content).2) := Prod.ext houtcome rfl
    rw [writeEntries, writeEntry, if_neg hskip, hwrite]
    exact fun hdone => by cases hdone

/-- Files fit together with one more when a disk takes that one too and no two
of them are in each other's way. -/
theorem fits_concat_iff : Fits dir d (fs ++ [f]) ↔ Fits dir d fs ∧ d.Takes (join dir f.name) ∧
    ∀ g ∈ fs, d.target (join dir f.name) ∉ d.wayTo (join dir g.name) ∧
      d.target (join dir g.name) ∉ d.wayTo (join dir f.name) := by
  constructor
  · intro h
    have hf : f ∈ fs ++ [f] := by simp
    have hfs : ∀ g ∈ fs, g ∈ fs ++ [f] := fun g hg => List.mem_append_left _ hg
    exact ⟨⟨fun g hg => h.takes g (hfs g hg),
        fun g hg g' hg' => h.apart g (hfs g hg) g' (hfs g' hg')⟩,
      h.takes f hf, fun g hg => ⟨h.apart f hf g (hfs g hg), h.apart g (hfs g hg) f hf⟩⟩
  · rintro ⟨hfits, htakes, hapart⟩
    refine ⟨?_, ?_⟩
    · exact List.forall_mem_append.mpr ⟨hfits.takes, by simpa using htakes⟩
    · intro g hg g' hg'
      rw [List.mem_append, List.mem_singleton] at hg hg'
      rcases hg with hg | rfl <;> rcases hg' with hg' | rfl
      · exact hfits.apart g hg g' hg'
      · exact (hapart g hg).2
      · exact (hapart g' hg').1
      · exact htakes.target_not_on_way

theorem Fits.mono (h : Fits dir d fs) (hsub : done ⊆ fs) : Fits dir d done :=
  ⟨fun f hf => h.takes f (hsub hf), fun f hf g hg => h.apart f (hsub hf) g (hsub hg)⟩

variable (dir how d done) in
/-- **A run goes through exactly when its files fit**, together with those that
were written before. Then the results are the verdicts from the beginning, and
the disk is what all files make of it. -/
structure GoesThrough (fs : List SourceFile) (d' : Disk) : Prop where
  completes : Fits dir d (done ++ d.unskipped dir how fs) →
    (writeEntries dir how fs d').1 = .ok (fs.map (d.verdict dir how)) ∧
      After dir d (done ++ d.unskipped dir how fs) (writeEntries dir how fs d').2
  fits : ∀ results, (writeEntries dir how fs d').1 = .ok results →
    Fits dir d (done ++ d.unskipped dir how fs)

/-- A file that is skipped adds its verdict and nothing else. -/
theorem GoesThrough.cons_skipped (h : GoesThrough dir how d done fs d')
    (hnow : d'.skips dir how f = true) (hskip : d.skips dir how f = true) :
    GoesThrough dir how d done (f :: fs) d' := by
  have hunskipped : d.unskipped dir how (f :: fs) = d.unskipped dir how fs := by
    simp [unskipped, hskip]
  have hverdict : d.verdict dir how f = .skipped (join dir f.name) := by simp [verdict, hskip]
  refine ⟨fun hall => ?_, fun results hdone => ?_⟩
  · rw [hunskipped] at hall
    obtain ⟨hok, hafter⟩ := h.completes hall
    rw [writeEntries_cons hnow, hunskipped, List.map_cons, hverdict]
    exact ⟨Outcome.map_eq_ok_iff.mpr ⟨_, hok, rfl⟩, hafter⟩
  · rw [writeEntries_cons hnow] at hdone
    obtain ⟨rest, hok, -⟩ := Outcome.map_eq_ok_iff.mp hdone
    rw [hunskipped]
    exact h.fits rest hok

theorem unskipped_cons (hskip : d.skips dir how f = false) :
    done ++ d.unskipped dir how (f :: fs) = done ++ [f] ++ d.unskipped dir how fs := by
  simp [unskipped, hskip]

/-- A file that is written goes to those that were written before. -/
theorem GoesThrough.cons_written
    (h : GoesThrough dir how d (done ++ [f]) fs (d'.writeFile (join dir f.name) f.content).2)
    (hnow : d'.skips dir how f = false) (hskip : d.skips dir how f = false)
    (hwritten : (d'.writeFile (join dir f.name) f.content).1 = .ok ()) :
    GoesThrough dir how d done (f :: fs) d' := by
  have hverdict : d.verdict dir how f = .written (join dir f.name) := by simp [verdict, hskip]
  refine ⟨fun hall => ?_, fun results hdone => ?_⟩
  · rw [unskipped_cons hskip] at hall
    obtain ⟨hok, hafter⟩ := h.completes hall
    rw [writeEntries_cons_written hnow hwritten, unskipped_cons hskip, List.map_cons, hverdict]
    exact ⟨Outcome.map_eq_ok_iff.mpr ⟨_, hok, rfl⟩, hafter⟩
  · rw [writeEntries_cons_written hnow hwritten] at hdone
    obtain ⟨rest, hok, -⟩ := Outcome.map_eq_ok_iff.mp hdone
    rw [unskipped_cons hskip]
    exact h.fits rest hok

/-- A file that cannot be written ends the run, and it does not fit to those
that were written before. -/
theorem GoesThrough.cons_failed (hnow : d'.skips dir how f = false)
    (hskip : d.skips dir how f = false) (hmisfit : ¬Fits dir d (done ++ [f]))
    (hfailed : (d'.writeFile (join dir f.name) f.content).1 ≠ .ok ()) :
    GoesThrough dir how d done (f :: fs) d' := by
  refine ⟨fun hall => ?_, fun results hdone => ?_⟩
  · rw [unskipped_cons hskip] at hall
    exact absurd (hall.mono (List.subset_append_left _ _)) hmisfit
  · exact absurd hdone (writeEntries_cons_failed hnow hfailed)

/-- Whether a file is skipped is the same question now as it was in the
beginning. -/
theorem skips_after (htree : d.IsTree) (hup : how = .ifMissing → d.GoesUpInside dir)
    (h : After dir d fs d') (hfits : Fits dir d fs) (hname : IsPlainName f.name)
    (hnames : ∀ g ∈ fs, IsPlainName g.name) (hapart : ∀ g ∈ fs, f.Apart g) :
    d'.skips dir how f = d.skips dir how f := by
  rw [skips, skips]
  by_cases hhow : how = .ifMissing
  · rw [exists?_after (hup hhow) hname htree h hfits hnames hapart]
  · simp [hhow]

/-- **Every run goes through exactly when its files fit.** This is proved along
the run; what was written before is what the disk has become. -/
theorem goesThrough (htree : d.IsTree) (hup : how = .ifMissing → d.GoesUpInside dir)
    (h : After dir d done d') (hfits : Fits dir d done)
    (hnames : ∀ f ∈ done ++ fs, IsPlainName f.name)
    (hapart : (done ++ fs).Pairwise SourceFile.Apart) : GoesThrough dir how d done fs d' := by
  induction fs generalizing done d' with
  | nil =>
    rw [List.append_nil] at hnames
    exact ⟨fun _ => ⟨rfl, (List.append_nil done).symm ▸ h⟩,
      fun _ _ => (List.append_nil done).symm ▸ hfits⟩
  | cons f fs ih =>
    have hname : IsPlainName f.name := hnames f (by simp)
    have hdone : ∀ g ∈ done, IsPlainName g.name := fun g hg => hnames g (by simp [hg])
    have hothers : ∀ g ∈ done, f.Apart g := fun g hg =>
      ((List.pairwise_append.mp hapart).2.2 g hg f (List.mem_cons_self ..)).symm
    have hskips := skips_after htree hup h hfits hname hdone hothers
    cases hskip : d.skips dir how f with
    | true =>
      have hrest : (done ++ fs).Sublist (done ++ f :: fs) := by simp
      exact (ih h hfits (fun g hg => hnames g (hrest.subset hg))
        (hapart.sublist hrest)).cons_skipped (hskips.trans hskip) hskip
    | false =>
      have hwritten : (d'.writeFile (join dir f.name) f.content).1 = .ok () ↔
          d'.Takes (join dir f.name) :=
        (writeFile_spec (h.root hfits htree.root) (endsInName_join hname)).1
      have htakes_iff := takes_after_iff h hfits (join dir f.name)
      by_cases htakes : d'.Takes (join dir f.name)
      · have hboth := htakes_iff.mp htakes
        have hafter := h.write (h.root hfits htree.root) hname htakes fun g hg =>
          ⟨(hboth.2 g hg).2, (hboth.2 g hg).1,
            (target_ne_of_apart hname (hdone g hg) (hothers g hg)).symm⟩
        have hrest := ih hafter (fits_concat_iff.mpr ⟨hfits, hboth⟩)
          (by rwa [← List.append_cons]) (by rwa [← List.append_cons])
        exact hrest.cons_written (hskips.trans hskip) hskip (hwritten.mpr htakes)
      · refine .cons_failed (hskips.trans hskip) hskip (fun hfit => htakes ?_)
          fun hok => htakes (hwritten.mp hok)
        exact htakes_iff.mpr (fits_concat_iff.mp hfit).2

/-- **Two disks hold the same** when the same stands at each place and paths
start from the same. -/
structure HoldsSame (d d' : Disk) : Prop where
  workingDir_eq : d'.workingDir = d.workingDir
  at?_eq : ∀ place, d'.at? place = d.at? place

/-- What a disk has become does not depend on the order of the files. -/
theorem After.holdsSame {d₁ d₂ : Disk} {fs₁ fs₂ : List SourceFile} (h₁ : After dir d fs₁ d₁)
    (h₂ : After dir d fs₂ d₂) (hmem : ∀ f, f ∈ fs₁ ↔ f ∈ fs₂) : HoldsSame d₁ d₂ := by
  refine ⟨h₂.workingDir_eq.trans h₁.workingDir_eq.symm, fun q => ?_⟩
  rcases h₁.cases q with ⟨f, hf, rfl, hat⟩ | ⟨f, hf, hq, hat⟩ | hat
  · rw [hat, h₂.file f ((hmem f).mp hf)]
  · rw [hat, h₂.way f ((hmem f).mp hf) q hq]
  · rcases h₂.cases q with ⟨f, hf, rfl, hat'⟩ | ⟨f, hf, hq, hat'⟩ | hat'
    · rw [hat', h₁.file f ((hmem f).mpr hf)]
    · rw [hat', h₁.way f ((hmem f).mpr hf) q hq]
    · rw [hat, hat']

theorem read?_of_resolve? {path : String} {q : Place} (h : d.resolve? path = some q) :
    d.read? path = match d.at? q with
      | some (.file content) => some content
      | _ => none := by
  rw [read?, h]
  rfl

section Contents

variable (htree : d.IsTree) (h : After dir d fs d') (hfits : Fits dir d fs)
  (hname : IsPlainName f.name)
include htree h hfits hname

/-- A file that was written is reached by its path. -/
theorem resolve?_of_mem (hf : f ∈ fs) :
    d'.resolve? (join dir f.name) = some (d.target (join dir f.name)) := by
  have hroot := h.root hfits htree.root
  have htakes := hfits.takes f hf
  refine (resolve?_eq_some_iff hroot (endsInName_join hname)).mpr
    ⟨htakes.is_path, target_congr h.workingDir_eq _, htakes.names, ?_⟩
  rw [wayTo_congr h.workingDir_eq]
  exact h.way f hf

/-- A file that was written holds its text. -/
theorem read?_of_mem (hf : f ∈ fs) : d'.read? (join dir f.name) = some f.content := by
  rw [read?_of_resolve? (resolve?_of_mem htree h hfits hname hf), h.file f hf]

/-- What was there when the others were written still holds what it did. -/
theorem read?_of_exists? (hnames : ∀ g ∈ fs, IsPlainName g.name) (hapart : ∀ g ∈ fs, f.Apart g)
    (hexists : d.exists? (join dir f.name) = true) :
    d'.read? (join dir f.name) = d.read? (join dir f.name) := by
  have hroot := h.root hfits htree.root
  obtain ⟨hpath, hsteps, hway, hsome⟩ :=
    (exists?_eq_true_iff htree.root (endsInName_join hname)).mp hexists
  have hbefore := resolve?_of_exists? htree.root (endsInName_join hname) hexists
  have hnow : d'.resolve? (join dir f.name) = some (d.target (join dir f.name)) := by
    refine (resolve?_eq_some_iff hroot (endsInName_join hname)).mpr
      ⟨hpath, target_congr h.workingDir_eq _, hsteps, ?_⟩
    rw [wayTo_congr h.workingDir_eq]
    exact fun p hp => h.directory hfits (hway p hp)
  rw [read?_of_resolve? hbefore, read?_of_resolve? hnow]
  obtain ⟨node, hnode⟩ := Option.isSome_iff_exists.mp hsome
  rcases h.at?_of_some hfits hnode with hstill | ⟨g, hg, heq⟩
  · rw [hstill, hnode]
  · exact absurd heq (target_ne_of_apart hname (hnames g hg) (hapart g hg))

end Contents

end

end Disk

namespace Collection

open Disk

/-- Files that are apart have names of their own. -/
theorem nodup_names {fs : List SourceFile} (h : fs.Pairwise SourceFile.Apart) :
    (fs.map (·.name)).Nodup := by
  refine List.pairwise_map.mpr (h.imp fun {f g} hapart hname => hapart.1 ?_)
  exact hname ▸ List.prefix_rfl

/-- The results of a schedule, listed in the order of registration: each is
found by the name of its file. -/
theorem relisted_of_nodup {schedule files : List SourceFile} (hnodup : (files.map (·.name)).Nodup)
    (hperm : schedule.Perm files) (result : SourceFile → WriteResult) :
    files.filterMap (fun file => ((schedule.zip (schedule.map result)).find?
      (·.1.name == file.name)).map (·.2)) = files.map result := by
  have hfind : ∀ file ∈ files, ((schedule.zip (schedule.map result)).find?
      (·.1.name == file.name)).map (·.2) = some (result file) := by
    intro file hfile
    have hzip : schedule.zip (schedule.map result) = schedule.map fun f => (f, result f) := by
      have hboth := @List.zip_map' _ _ _ id result schedule
      rwa [List.map_id] at hboth
    have hscheduled : schedule.find? (·.name == file.name) = some file := by
      have hthere : (schedule.find? (·.name == file.name)).isSome :=
        List.find?_isSome.mpr ⟨file, hperm.mem_iff.mpr hfile, beq_self_eq_true file.name⟩
      obtain ⟨found, hfound⟩ := Option.isSome_iff_exists.mp hthere
      have hmem := hperm.mem_iff.mp (List.mem_of_find?_eq_some hfound)
      have hname : found.name = file.name := by simpa using List.find?_some hfound
      rw [hfound, List.inj_on_of_nodup_map hnodup hmem hfile hname]
    rw [hzip, List.find?_map]
    show ((schedule.find? (·.name == file.name)).map _).map _ = _
    rw [hscheduled]
    rfl
  rw [List.filterMap_congr hfind, List.filterMap_eq_map']

theorem relisted {schedule files : List SourceFile} (hapart : files.Pairwise SourceFile.Apart)
    (hperm : schedule.Perm files) (result : SourceFile → WriteResult) :
    files.filterMap (fun file => ((schedule.zip (schedule.map result)).find?
      (·.1.name == file.name)).map (·.2)) = files.map result :=
  relisted_of_nodup (nodup_names hapart) hperm result

/-- **Any order gives the same.** -/
theorem exportBy_any_order {c : Collection} {dir : String} {how : Overwrite} {d : Disk}
    {schedule : List SourceFile} {results : List WriteResult} (htree : d.IsTree)
    (hnames : ∀ f ∈ c.files, IsPlainName f.name) (hapart : c.files.Pairwise SourceFile.Apart)
    (hup : how = .ifMissing → d.GoesUpInside dir) (hschedule : schedule.Perm c.files)
    (hok : (c.exportTo dir how d).1 = .ok results) :
    let after := (c.exportTo dir how d).2
    (c.exportBy schedule dir how d).1 = .ok results ∧
    HoldsSame after (c.exportBy schedule dir how d).2 ∧
    results = c.files.map (d.verdict dir how) ∧
    (∀ f ∈ c.files, after.read? (join dir f.name) =
      if d.skips dir how f then d.read? (join dir f.name) else some f.content) ∧
    ∀ place node, d.at? place = some node → after.at? place = some node ∨
      ∃ f ∈ c.files, d.skips dir how f = false ∧ after.resolve? (join dir f.name) = some place := by
  intro after
  -- A run of any schedule starts with nothing written yet.
  have hstart : After dir d [] d := ⟨rfl, by simp, by simp, fun _ _ => rfl⟩
  have hnone : Fits dir d [] := ⟨by simp, by simp⟩
  have hregistered : GoesThrough dir how d [] c.files d :=
    goesThrough htree hup hstart hnone hnames hapart
  have hfits : Fits dir d (d.unskipped dir how c.files) := hregistered.fits results hok
  obtain ⟨hresults, hafter⟩ := hregistered.completes hfits
  have hmem : ∀ f, f ∈ d.unskipped dir how c.files ↔ f ∈ d.unskipped dir how schedule := fun f =>
    ((hschedule.filter _).mem_iff).symm
  -- The files of the schedule fit as well, since they are the same.
  have hother : GoesThrough dir how d [] schedule d :=
    goesThrough htree hup hstart hnone (fun f hf => hnames f (hschedule.mem_iff.mp hf))
      ((hschedule.pairwise_iff SourceFile.Apart.symm).mpr hapart)
  obtain ⟨hscheduled, hafter'⟩ := hother.completes (hfits.mono fun f hf => (hmem f).mpr hf)
  have hverdicts : results = c.files.map (d.verdict dir how) :=
    Except.ok.inj (hok.symm.trans hresults)
  have hunskipped : ∀ g ∈ d.unskipped dir how c.files, g ∈ c.files ∧ d.skips dir how g = false :=
    fun g hg => by simpa [unskipped] using hg
  refine ⟨?_, hafter.holdsSame hafter' hmem, hverdicts, fun f hf => ?_, fun place node hnode => ?_⟩
  · show (writeEntries dir how schedule d).1.map _ = _
    rw [hscheduled, hverdicts]
    exact congrArg Except.ok (relisted hapart hschedule (d.verdict dir how))
  · cases hskip : d.skips dir how f with
    | true =>
      have hothers : ∀ g ∈ d.unskipped dir how c.files, f.Apart g := fun g hg => by
        obtain ⟨hg, hwritten⟩ := hunskipped g hg
        refine hapart.forall hf hg ?_
        rintro rfl
        exact absurd hskip (by simp [hwritten])
      have hexists : d.exists? (join dir f.name) = true := (Bool.and_eq_true_iff.mp hskip).2
      rw [if_pos rfl]
      exact read?_of_exists? htree hafter hfits (hnames f hf)
        (fun g hg => hnames g (hunskipped g hg).1) hothers hexists
    | false =>
      rw [if_neg Bool.false_ne_true]
      have hwritten : f ∈ d.unskipped dir how c.files :=
        List.mem_filter.mpr ⟨hf, by rw [hskip, Bool.not_false]⟩
      exact read?_of_mem htree hafter hfits (hnames f hf) hwritten
  · rcases hafter.at?_of_some hfits hnode with hstill | ⟨g, hg, rfl⟩
    · exact .inl hstill
    · obtain ⟨hmem, hwritten⟩ := hunskipped g hg
      exact .inr ⟨g, hmem, hwritten, resolve?_of_mem htree hafter hfits (hnames g hmem) hg⟩

/-- Three files below a directory that goes up in another one, one of them there
already, written from the last to the first. -/
theorem exportBy_any_order_backwards :
    let c : Collection := ⟨[("Models/A.cs", "a"), ("Models/B.cs", "b"), ("C.cs", "c")], by decide⟩
    let d : Disk := .ofFiles ["home"] [("obj/x", ""), ("gen/Models/A.cs", "old")]
    let dir := "obj/../gen"
    (c.exportBy c.files.reverse dir .ifMissing d).1 = .ok [.skipped "obj/../gen/Models/A.cs",
      .written "obj/../gen/Models/B.cs", .written "obj/../gen/C.cs"] ∧
    HoldsSame (c.exportTo dir .ifMissing d).2 (c.exportBy c.files.reverse dir .ifMissing d).2 := by
  intro c d dir
  have hup : d.GoesUpInside dir :=
    ⟨["obj", ".."], ["gen"], ["home"], by decide +kernel, by decide, by decide +kernel,
      by decide +kernel⟩
  have horder := @exportBy_any_order c dir .ifMissing d c.files.reverse
    [.skipped "obj/../gen/Models/A.cs", .written "obj/../gen/Models/B.cs",
      .written "obj/../gen/C.cs"]
    (by decide +kernel) (by decide +kernel) (by decide +kernel) (fun _ => hup) (List.reverse_perm _)
    (by decide +kernel)
  exact ⟨horder.1, horder.2.1⟩

/-- **The order matters** where a directory goes up from one that is missing:
the file that is written first makes it, and only then is the other one seen. -/
theorem exportBy_order_matters :
    let c : Collection := ⟨[("x", "X"), ("y", "new")], by decide⟩
    let d : Disk := .ofFiles ["home"] [("b/y", "old")]
    let dir := "a/../b"
    d.IsTree ∧ (∀ f ∈ c.files, IsPlainName f.name) ∧ c.files.Pairwise SourceFile.Apart ∧
    (c.exportTo dir .ifMissing d).1 = .ok [.written "a/../b/x", .skipped "a/../b/y"] ∧
    (c.exportTo dir .ifMissing d).2.read? "b/y" = some "old" ∧
    (c.exportBy c.files.reverse dir .ifMissing d).1 =
      .ok [.written "a/../b/x", .written "a/../b/y"] ∧
    (c.exportBy c.files.reverse dir .ifMissing d).2.read? "b/y" = some "new" := by
  decide +kernel

end Collection

end SharpSource
