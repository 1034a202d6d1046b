import SharpSource.Disk.Export
import SharpSource.Proofs.Paths

/-!
# Walks on a disk

Where a path leads to is known without looking at the disk: a name goes down,
two dots go up. The disk decides whether the walk can be made, and that is a
matter of the places it steps from, which have to be directories
(`Disk.resolve?_eq_some_iff`). Making directories turns those of them into
directories that are missing, and fails where there is a file
(`Disk.makeDirs_ok_iff`).

So writing a file needs three things of a disk: no file among the **directories
on the way**, no directory at the **target**, and a way that does not lead past
the target itself, where it would have made one (`Disk.Takes`). What the disk
is afterwards is said place by place (`Disk.at?_writeFile`).
-/

namespace SharpSource

namespace Disk

/-! ### Where steps lead to -/

/-- The place that a step leads to. -/
def next (place : Place) (name : String) : Place :=
  if name = "." then place else if name = ".." then place.dropLast else place ++ [name]

/-- The place that steps lead to. -/
def arrive (place : Place) (names : List String) : Place :=
  names.foldl next place

/-- The places that steps lead to on their way, the last one included. -/
def visited : Place → List String → List Place
  | _, [] => []
  | place, name :: names => next place name :: visited (next place name) names

/-- The places that steps are made from. -/
def left : Place → List String → List Place
  | _, [] => []
  | place, name :: names => place :: left (next place name) names

theorem arrive_append (place : Place) (names names' : List String) :
    arrive place (names ++ names') = arrive (arrive place names) names' :=
  List.foldl_append

theorem visited_append (place : Place) (names names' : List String) :
    visited place (names ++ names') =
      visited place names ++ visited (arrive place names) names' := by
  induction names generalizing place with
  | nil => rfl
  | cons name names ih => exact congrArg _ (ih (next place name))

theorem left_concat (place : Place) (names : List String) (name : String) :
    left place (names ++ [name]) = place :: visited place names := by
  induction names generalizing place with
  | nil => rfl
  | cons n names ih => exact congrArg _ (ih (next place n))

/-- Names that only go down lead to the place below. -/
theorem arrive_eq_append {place : Place} {names : List String}
    (h : ∀ n ∈ names, n ≠ "." ∧ n ≠ "..") : arrive place names = place ++ names := by
  induction names generalizing place with
  | nil => simp [arrive]
  | cons name names ih =>
    rw [List.forall_mem_cons] at h
    show arrive (next place name) names = _
    rw [ih h.2, next, if_neg h.1.1, if_neg h.1.2, List.append_assoc]
    rfl

theorem mem_visited_of_down {place p : Place} {names : List String}
    (h : ∀ n ∈ names, n ≠ "." ∧ n ≠ "..") (hp : p ∈ visited place names) :
    ∃ before, before <+: names ∧ p = place ++ before := by
  induction names generalizing place with
  | nil => cases hp
  | cons name names ih =>
    rw [List.forall_mem_cons] at h
    have hnext : next place name = place ++ [name] := by rw [next, if_neg h.1.1, if_neg h.1.2]
    rw [visited, hnext, List.mem_cons] at hp
    rcases hp with rfl | hp
    · exact ⟨[name], List.cons_prefix_cons.mpr ⟨rfl, List.nil_prefix⟩, rfl⟩
    · obtain ⟨before, hbefore, rfl⟩ := ih h.2 hp
      exact ⟨name :: before, List.cons_prefix_cons.mpr ⟨rfl, hbefore⟩, by simp⟩

section

variable {d : Disk} {place q : Place} {name : String} {names : List String}

/-! ### Walking -/

theorem step?_eq_some_iff : d.step? place name = some q ↔
    d.at? place = some .directory ∧ isName name = true ∧ next place name = q := by
  rw [step?]
  cases hat : d.at? place with
  | none => simp
  | some node =>
    cases node with
    | file content => simp
    | directory => cases isName name <;> simp [next]

theorem step?_eq_none (h : d.at? place ≠ some .directory) : d.step? place name = none := by
  rw [Option.eq_none_iff_forall_ne_some]
  intro q hq
  exact h (step?_eq_some_iff.mp hq).1

/-- **A walk can be made** when it steps from directories only. -/
theorem walk?_eq_some_iff : d.walk? place names = some q ↔
    arrive place names = q ∧ (∀ n ∈ names, isName n = true) ∧
      ∀ p ∈ left place names, d.at? p = some .directory := by
  induction names generalizing place with
  | nil => simp [walk?, arrive, left]
  | cons name names ih =>
    have hcons : d.walk? place (name :: names) =
        (d.step? place name).bind fun p => d.walk? p names := rfl
    rw [hcons, Option.bind_eq_some_iff, List.forall_mem_cons, left, List.forall_mem_cons]
    constructor
    · rintro ⟨p, hstep, hwalk⟩
      obtain ⟨hat, hname, rfl⟩ := step?_eq_some_iff.mp hstep
      obtain ⟨harrive, hnames, hleft⟩ := ih.mp hwalk
      exact ⟨harrive, ⟨hname, hnames⟩, hat, hleft⟩
    · rintro ⟨harrive, ⟨hname, hnames⟩, hat, hleft⟩
      exact ⟨next place name, step?_eq_some_iff.mpr ⟨hat, hname, rfl⟩,
        ih.mpr ⟨harrive, hnames, hleft⟩⟩

/-! ### Dots -/

theorem next_dot : next place "." = place :=
  if_pos rfl

theorem walk?_of_not_directory (h : d.at? place ≠ some .directory) (hne : names ≠ []) :
    d.walk? place names = none := by
  cases names with
  | nil => exact absurd rfl hne
  | cons name names =>
    show (d.step? place name).bind _ = none
    rw [step?_eq_none h]
    rfl

/-- Dots on the way are no hindrance, as long as the walk goes on behind
them. -/
theorem walk?_moves (hlast : names.getLast? ≠ some ".") :
    d.walk? place (names.filter (· ≠ ".")) = d.walk? place names := by
  induction names generalizing place with
  | nil => rfl
  | cons name names ih =>
    have hwalk : ∀ ns, d.walk? place (name :: ns) =
      (d.step? place name).bind fun p => d.walk? p ns := fun _ => rfl
    have hrest : names.getLast? ≠ some "." := by
      cases names with
      | nil => simp
      | cons n ns => exact hlast
    by_cases hdot : name = "."
    · subst hdot
      have hne : names ≠ [] := by
        rintro rfl
        exact hlast rfl
      rw [List.filter_cons_of_neg (by simp), hwalk, ih hrest]
      by_cases hat : d.at? place = some .directory
      · rw [step?_eq_some_iff.mpr ⟨hat, by decide, next_dot⟩]
        rfl
      · rw [step?_eq_none hat]
        exact walk?_of_not_directory hat hne
    · rw [List.filter_cons_of_pos (by simpa using hdot), hwalk, hwalk]
      exact congrArg _ (funext fun p => ih hrest)

/-- A walk that can be made can be made without the dots in it. -/
theorem walk?_moves_of_some (h : d.walk? place names = some q) :
    d.walk? place (names.filter (· ≠ ".")) = some q := by
  induction names generalizing place with
  | nil => exact h
  | cons name names ih =>
    obtain ⟨p, hstep, hwalk⟩ := Option.bind_eq_some_iff.mp
      (show (d.step? place name).bind (d.walk? · names) = some q from h)
    by_cases hdot : name = "."
    · subst hdot
      obtain ⟨-, -, rfl⟩ := step?_eq_some_iff.mp hstep
      rw [List.filter_cons_of_neg (by simp)]
      exact ih hwalk
    · rw [List.filter_cons_of_pos (by simpa using hdot)]
      exact Option.bind_eq_some_iff.mpr ⟨p, hstep, ih hwalk⟩

/-- A walk steps from each place that it visits, but for the one it arrives
at. -/
theorem mem_visited {p : Place} (h : p ∈ visited place names) :
    p ∈ left place names ∨ p = arrive place names := by
  induction names generalizing place with
  | nil => cases h
  | cons name names ih =>
    rcases List.mem_cons.mp h with rfl | h
    · cases names with
      | nil => exact .inr rfl
      | cons n ns => exact .inl (List.mem_cons_of_mem _ (List.mem_cons_self ..))
    · exact (ih h).imp_left (List.mem_cons_of_mem _)

/-! ### Making directories -/

/-- There is **no file** at a place; a directory may be. -/
def NoFileAt (d : Disk) (place : Place) : Prop :=
  ∀ content, d.at? place ≠ some (.file content)

/-- The disk with a directory at a place where nothing was. -/
def ensure (d : Disk) (place : Place) : Disk :=
  match d.at? place with
  | some _ => d
  | none => d.put place .directory

theorem ensure_eq_self {node : Node} (h : d.at? q = some node) : d.ensure q = d := by
  rw [ensure, h]

theorem workingDir_ensure : (d.ensure q).workingDir = d.workingDir := by
  rw [ensure]
  split <;> rfl

theorem at?_ensure (h : d.NoFileAt q) (p : Place) :
    (d.ensure q).at? p = if p = q then some .directory else d.at? p := by
  rw [ensure]
  cases hat : d.at? q with
  | none =>
    refine at?_put ?_
    rintro rfl
    cases hat
  | some node =>
    cases node with
    | file content => exact absurd hat (h content)
    | directory =>
      by_cases hp : p = q
      · rw [if_pos hp, hp]
        exact hat
      · rw [if_neg hp]

theorem makeDirs_cons : makeDirs (name :: names) place d =
    match d.step? place name with
    | none => (false, d)
    | some q => makeDirs names q (d.ensure q) := by
  rw [makeDirs]
  cases d.step? place name with
  | none => rfl
  | some q =>
    show (match d.at? q with
      | some _ => makeDirs names q d
      | none => makeDirs names q (d.put q .directory)) = makeDirs names q (d.ensure q)
    rw [ensure]
    cases d.at? q <;> rfl

theorem makeDirs_of_not_directory (h : d.at? place ≠ some .directory) :
    makeDirs names place d = (false, d) := by
  cases names with
  | nil =>
    rw [makeDirs]
    simp [h]
  | cons name names => rw [makeDirs_cons, step?_eq_none h]

/-- Nothing is made for a dot. -/
theorem makeDirs_moves : makeDirs (names.filter (· ≠ ".")) place d = makeDirs names place d := by
  induction names generalizing place d with
  | nil => rfl
  | cons name names ih =>
    by_cases hdot : name = "."
    · subst hdot
      rw [List.filter_cons_of_neg (by simp), ih, makeDirs_cons]
      by_cases hat : d.at? place = some .directory
      · rw [step?_eq_some_iff.mpr ⟨hat, by decide, next_dot⟩]
        show _ = makeDirs names place (d.ensure place)
        rw [ensure_eq_self hat]
      · rw [step?_eq_none hat]
        exact makeDirs_of_not_directory hat
    · rw [List.filter_cons_of_pos (by simpa using hdot), makeDirs_cons, makeDirs_cons]
      cases d.step? place name with
      | none => rfl
      | some q => exact ih

theorem workingDir_makeDirs : (makeDirs names place d).2.workingDir = d.workingDir := by
  induction names generalizing place d with
  | nil => rfl
  | cons name names ih =>
    rw [makeDirs_cons]
    cases d.step? place name with
    | none => rfl
    | some q => exact ih.trans workingDir_ensure

/-- A directory that is made takes the place of no file. -/
theorem noFileAt_ensure_iff (h : d.NoFileAt q) (p : Place) :
    (d.ensure q).NoFileAt p ↔ d.NoFileAt p := by
  rw [NoFileAt, at?_ensure h]
  split
  · rename_i hp
    simpa [hp] using h
  · rfl

/-- No directory is made in the place of a file. -/
theorem makeDirs_ensure_of_file (h : ¬d.NoFileAt q) :
    makeDirs names q (d.ensure q) = (false, d) := by
  rw [NoFileAt, not_forall] at h
  obtain ⟨content, hcontent⟩ := h
  rw [not_not] at hcontent
  rw [ensure_eq_self hcontent]
  exact makeDirs_of_not_directory (by simp [hcontent])

/-- **Directories are made** from a directory on when no file is in the way.
Then they all stand there, and everything else is as it was. -/
theorem makeDirs_spec (hplace : d.at? place = some .directory) :
    ((makeDirs names place d).1 = true ↔
      (∀ n ∈ names, isName n = true) ∧ ∀ p ∈ visited place names, d.NoFileAt p) ∧
    ((makeDirs names place d).1 = true → ∀ r, (makeDirs names place d).2.at? r =
      if r ∈ visited place names then some .directory else d.at? r) := by
  induction names generalizing place d with
  | nil => simp [makeDirs, hplace, visited]
  | cons name names ih =>
    rw [makeDirs_cons, visited, List.forall_mem_cons, List.forall_mem_cons]
    by_cases hname : isName name = true
    · rw [step?_eq_some_iff.mpr ⟨hplace, hname, rfl⟩]
      by_cases hfile : d.NoFileAt (next place name)
      · -- The next place is a directory from now on, and the rest is made from there.
        have hat := at?_ensure hfile
        obtain ⟨hok, hafter⟩ := ih ((hat _).trans (if_pos rfl))
        refine ⟨?_, fun hmade r => ?_⟩
        · refine hok.trans ?_
          simp only [noFileAt_ensure_iff hfile]
          exact ⟨fun h => ⟨⟨hname, h.1⟩, hfile, h.2⟩, fun h => ⟨h.1.2, h.2.2⟩⟩
        · refine (hafter hmade r).trans ?_
          rw [hat]
          by_cases hr : r = next place name
          · simp [hr]
          · simp [hr]
      · -- With a file there the directory is never reached.
        show ((makeDirs names (next place name) (d.ensure (next place name))).1 = true ↔ _) ∧
          ((makeDirs names (next place name) (d.ensure (next place name))).1 = true → _)
        rw [makeDirs_ensure_of_file hfile]
        exact ⟨iff_of_false Bool.false_ne_true fun h => hfile h.2.1,
          fun h => absurd h Bool.false_ne_true⟩
    · have hstuck : d.step? place name = none := by
        rw [Option.eq_none_iff_forall_ne_some]
        exact fun q hq => hname (step?_eq_some_iff.mp hq).2.1
      rw [hstuck]
      exact ⟨iff_of_false Bool.false_ne_true fun h => hname h.1.1,
        fun h => absurd h Bool.false_ne_true⟩

end

/-! ### Where a path leads to -/

/-- **The target of a path**, which is known without looking at the disk. -/
def target (d : Disk) (path : String) : Place :=
  arrive (d.origin path) (moves path)

/-- **The directories on the way** to the target of a path. -/
def wayTo (d : Disk) (path : String) : List Place :=
  visited (d.origin path) (moves path).dropLast

section

variable {d : Disk} {path content : String}

theorem getLast?_steps_ne_dot (h : endsInName path = true) : (steps path).getLast? ≠ some "." := by
  intro hlast
  rw [endsInName, hlast] at h
  simp at h

theorem moves_ne_nil (h : endsInName path = true) : moves path ≠ [] := by
  intro hempty
  cases hlast : (steps path).getLast? with
  | none =>
    rw [endsInName, hlast] at h
    cases h
  | some name =>
    rw [moves, List.filter_eq_nil_iff] at hempty
    have hdot := hempty name (List.mem_of_getLast? hlast)
    rw [decide_eq_true_iff, not_not] at hdot
    exact getLast?_steps_ne_dot h (hdot ▸ hlast)

theorem origin_congr {d' : Disk} (h : d'.workingDir = d.workingDir) (path : String) :
    d'.origin path = d.origin path := by
  rw [origin, origin, h]

theorem target_congr {d' : Disk} (h : d'.workingDir = d.workingDir) (path : String) :
    d'.target path = d.target path := by
  rw [target, target, origin_congr h]

theorem wayTo_congr {d' : Disk} (h : d'.workingDir = d.workingDir) (path : String) :
    d'.wayTo path = d.wayTo path := by
  rw [wayTo, wayTo, origin_congr h]

theorem at?_origin (hroot : d.at? d.workingDir = some .directory) (path : String) :
    d.at? (d.origin path) = some .directory := by
  rw [origin]
  split
  · rfl
  · exact hroot

/-- **A path that ends in a name leads to its target** when the way there is
made of directories. -/
theorem resolve?_eq_some_iff (hroot : d.at? d.workingDir = some .directory)
    (h : endsInName path = true) {q : Place} : d.resolve? path = some q ↔
      isPath path = true ∧ d.target path = q ∧ (∀ n ∈ moves path, isName n = true) ∧
        ∀ p ∈ d.wayTo path, d.at? p = some .directory := by
  have hleft : left (d.origin path) (moves path) = d.origin path :: d.wayTo path := by
    have hmoves := List.dropLast_concat_getLast (moves_ne_nil h)
    rw [wayTo, ← left_concat, hmoves]
  rw [resolve?]
  by_cases hpath : isPath path = true
  · rw [if_pos hpath, ← walk?_moves (getLast?_steps_ne_dot h)]
    show d.walk? (d.origin path) (moves path) = some q ↔ _
    rw [walk?_eq_some_iff, hleft, List.forall_mem_cons]
    constructor
    · rintro ⟨harrive, hnames, -, hway⟩
      exact ⟨hpath, harrive, hnames, hway⟩
    · rintro ⟨-, harrive, hnames, hway⟩
      exact ⟨harrive, hnames, at?_origin hroot path, hway⟩
  · rw [if_neg hpath]
    exact iff_of_false (by simp) fun hq => hpath hq.1

/-! ### Writing -/

theorem isPath_of_start {parent : String} (hpath : isPath path = true) (hne : parent ≠ "")
    (hstart : parent.toList <+: path.toList) : isPath parent = true := by
  obtain ⟨rest, hrest⟩ := hstart
  have happend : path = parent ++ String.ofList rest := by
    rw [← String.toList_inj]
    simp [hrest]
  simp only [isPath, Bool.and_eq_true, bne_iff_ne, decide_eq_true_iff, Bool.not_eq_true',
    List.contains_eq_mem, decide_eq_false_iff_not] at hpath ⊢
  obtain ⟨⟨-, hsize⟩, hzero⟩ := hpath
  refine ⟨⟨hne, ?_⟩, fun hmem => hzero ?_⟩
  · rw [happend, String.utf8ByteSize_append] at hsize
    omega
  · rw [← hrest]
    exact List.mem_append_left _ hmem

theorem origin_of_start {parent : String} (hne : parent ≠ "")
    (hstart : parent.toList <+: path.toList) : d.origin parent = d.origin path := by
  obtain ⟨rest, hrest⟩ := hstart
  obtain ⟨c, cs, hcs⟩ := List.exists_cons_of_ne_nil (l := parent.toList) (by simpa using hne)
  rw [origin, origin, Path.isAbsolute, Path.isAbsolute, ← hrest, hcs]
  rfl

/-- **Making the parent of a path** is making the directories on the way. -/
theorem createDirAll_parent (hroot : d.at? d.workingDir = some .directory)
    (h : endsInName path = true) (hpath : isPath path = true) :
    d.createDirAll ((Path.parent? path).getD "") =
      makeDirs (moves path).dropLast (d.origin path) d := by
  obtain ⟨parent, hparent, hstart, hmoves⟩ := exists_parent h
  rw [hparent, Option.getD_some, createDirAll, ← hmoves]
  by_cases hne : parent = ""
  · have hnone : moves "" = [] := by decide
    rw [if_pos hne, hne, hnone, makeDirs, at?_origin hroot]
    rfl
  · rw [if_neg hne, if_pos (isPath_of_start hpath hne hstart), origin_of_start hne hstart]
    exact makeDirs_moves.symm

/-- **A disk takes a file** at a path: no file is on the way to the target, no
directory is at the target, and none is made there on the way. -/
structure Takes (d : Disk) (path : String) : Prop where
  is_path : isPath path = true
  names : ∀ n ∈ moves path, isName n = true
  way : ∀ p ∈ d.wayTo path, d.NoFileAt p
  target_not_directory : d.at? (d.target path) ≠ some .directory
  target_not_on_way : d.target path ∉ d.wayTo path

theorem write_eq (h : endsInName path = true) : d.write path content =
    match d.resolve? path with
    | none => (false, d)
    | some q =>
      if d.at? q = some .directory then (false, d) else (true, d.put q (.file content)) := by
  rw [write, h]
  cases d.resolve? path with
  | none => rfl
  | some q => simp

theorem workingDir_createDirAll : (d.createDirAll path).2.workingDir = d.workingDir := by
  rw [createDirAll]
  split
  · rfl
  split
  · exact workingDir_makeDirs
  · rfl

theorem workingDir_write : (d.write path content).2.workingDir = d.workingDir := by
  rw [write]
  cases d.resolve? path with
  | none => rfl
  | some q =>
    show (if _ then (false, d) else (true, d.put q (.file content))).2.workingDir = _
    split <;> rfl

/-- The directories are made first, and the file is written where that
succeeds. -/
theorem writeFile_eq :
    let dir := (Path.parent? path).getD ""
    let made := d.createDirAll dir
    let written := made.2.write path content
    d.writeFile path content =
      if made.1 = true then (if written.1 = true then .ok () else .error (.write path), written.2)
      else (.error (.create dir), made.2) := by
  intro dir made written
  have hmade : d.createDirAll dir = (made.1, made.2) := rfl
  have hwritten : made.2.write path content = (written.1, written.2) := rfl
  rw [writeFile, hmade]
  cases made.1 with
  | false => rfl
  | true =>
    dsimp only
    rw [hwritten]
    cases written.1 <;> rfl

/-- Paths start where they did before. -/
theorem workingDir_writeFile : (d.writeFile path content).2.workingDir = d.workingDir := by
  rw [writeFile_eq]
  split
  · exact workingDir_write.trans workingDir_createDirAll
  · exact workingDir_createDirAll

/-- Where the way is made of directories, a file can be written unless a
directory is at the target. -/
theorem write_spec (hroot : d.at? d.workingDir = some .directory) (h : endsInName path = true)
    (hway : ∀ p ∈ d.wayTo path, d.at? p = some .directory) :
    ((d.write path content).1 = true ↔ isPath path = true ∧ (∀ n ∈ moves path, isName n = true) ∧
      d.at? (d.target path) ≠ some .directory) ∧
    ((d.write path content).1 = true → ∀ q, (d.write path content).2.at? q =
      if q = d.target path then some (.file content) else d.at? q) := by
  rw [write_eq h]
  cases hresolve : d.resolve? path with
  | none =>
    refine ⟨iff_of_false Bool.false_ne_true fun ⟨hpath, hnames, _⟩ => ?_,
      fun h => absurd h Bool.false_ne_true⟩
    rw [(resolve?_eq_some_iff hroot h).mpr ⟨hpath, rfl, hnames, hway⟩] at hresolve
    cases hresolve
  | some q =>
    obtain ⟨hpath, rfl, hnames, -⟩ := (resolve?_eq_some_iff hroot h).mp hresolve
    dsimp only
    by_cases hdirectory : d.at? (d.target path) = some .directory
    · rw [if_pos hdirectory]
      exact ⟨iff_of_false Bool.false_ne_true fun h => h.2.2 hdirectory,
        fun h => absurd h Bool.false_ne_true⟩
    · rw [if_neg hdirectory]
      refine ⟨iff_of_true rfl ⟨hpath, hnames, hdirectory⟩, fun _ q => at?_put ?_⟩
      intro hempty
      rw [hempty] at hdirectory
      exact hdirectory rfl

/-- Behind a way that was made a file can be written, unless its target is a
directory or was made one. -/
theorem writeFile_spec_of_made {made : Disk} (hroot : d.at? d.workingDir = some .directory)
    (h : endsInName path = true) (hpath : isPath path = true)
    (hworking : made.workingDir = d.workingDir) (hway : ∀ p ∈ d.wayTo path, d.NoFileAt p)
    (hat : ∀ r, made.at? r = if r ∈ d.wayTo path then some .directory else d.at? r) :
    ((made.write path content).1 = true ↔ d.Takes path) ∧
    ((made.write path content).1 = true → ∀ q, (made.write path content).2.at? q =
      if q = d.target path then some (.file content)
      else if q ∈ d.wayTo path then some .directory
      else d.at? q) := by
  have hroot' : made.at? made.workingDir = some .directory := by
    rw [hworking, hat, hroot, ite_self]
  have hmade : ∀ p ∈ made.wayTo path, made.at? p = some .directory := by
    intro p hp
    rw [wayTo_congr hworking] at hp
    rw [hat, if_pos hp]
  obtain ⟨hwritten, hwrote⟩ := @write_spec made path content hroot' h hmade
  rw [target_congr hworking] at hwritten hwrote
  refine ⟨?_, fun hdone q => by rw [hwrote hdone, hat]⟩
  rw [hwritten, hat]
  constructor
  · rintro ⟨-, hnames, htarget⟩
    by_cases hmet : d.target path ∈ d.wayTo path
    · exact absurd (if_pos hmet) htarget
    · rw [if_neg hmet] at htarget
      exact ⟨hpath, hnames, hway, htarget, hmet⟩
  · intro htakes
    rw [if_neg htakes.target_not_on_way]
    exact ⟨hpath, htakes.names, htakes.target_not_directory⟩

/-- **Writing a file** succeeds on a disk that takes it. Then the file stands at
its target and the directories stand on the way, and everything else is as it
was. -/
theorem writeFile_spec (hroot : d.at? d.workingDir = some .directory) (h : endsInName path = true) :
    ((d.writeFile path content).1 = .ok () ↔ d.Takes path) ∧
    ((d.writeFile path content).1 = .ok () → ∀ q, (d.writeFile path content).2.at? q =
      if q = d.target path then some (.file content)
      else if q ∈ d.wayTo path then some .directory
      else d.at? q) := by
  rw [writeFile_eq]
  set made := d.createDirAll ((Path.parent? path).getD "")
  have hworking : made.2.workingDir = d.workingDir := workingDir_createDirAll
  have houtcome : ∀ written : Bool,
      (if written = true then .ok () else .error (.write path) : Except ExportError Unit) = .ok () ↔
        written = true := by
    intro written
    cases written <;> simp
  by_cases hpath : isPath path = true
  · have hmade : made = makeDirs (moves path).dropLast (d.origin path) d :=
      createDirAll_parent hroot h hpath
    obtain ⟨hok, hafter⟩ := @makeDirs_spec d _ (moves path).dropLast (at?_origin hroot path)
    rw [← hmade] at hok hafter
    by_cases hdirs : made.1 = true
    · rw [if_pos hdirs, houtcome]
      exact writeFile_spec_of_made hroot h hpath hworking (hok.mp hdirs).2 (hafter hdirs)
    · rw [if_neg hdirs]
      refine ⟨iff_of_false (by simp) fun htakes => hdirs (hok.mpr ⟨fun n hn => ?_, htakes.way⟩),
        fun hdone => by simp at hdone⟩
      exact htakes.names n ((List.dropLast_sublist _).subset hn)
  · -- A text that is no path is not written to, whatever was made for its parent.
    have hfail : ¬(made.2.write path content).1 = true := by
      rw [write, resolve?, if_neg hpath]
      exact Bool.false_ne_true
    rw [if_neg hfail]
    split
    all_goals exact ⟨iff_of_false (by simp) fun htakes => hpath htakes.is_path,
      fun hdone => by simp at hdone⟩

end

end Disk

end SharpSource
