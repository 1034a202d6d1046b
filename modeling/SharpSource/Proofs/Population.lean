import SharpSource.Proofs.Alignment

/-!
# Populating a collection

Populating goes through specifications in order and registers the file of each,
until one of them fails. What is registered by then stays. So the collection
ends as if the files of a **prefix** of the specifications had been registered
one after the other: of those in front of the first failure, or of all of them
(`FileEmitter.populate_registers_prefix`).

Files may share a name, with each other and with what was there before. They
are counted all the same, and the one that comes last is kept. An entry under
any other name stays what it is, and where it is: registering under a name
touches that name alone (`Collection.getElem?_entries_foldl_register`).
-/

namespace SharpSource

/-! ### Entries under other names -/

/-- Putting a value under a key leaves an entry under another key in its
place. -/
theorem Entries.getElem?_put_of_ne {κ α : Type} [DecidableEq κ] {key : κ} {value : α}
    {l : List (κ × α)} {i : Nat} {e : κ × α} (h : l[i]? = some e) (hne : e.1 ≠ key) :
    (put key value l)[i]? = some e := by
  induction l generalizing i with
  | nil => cases h
  | cons d l ih =>
    rw [put]
    by_cases hd : d.1 = key
    · -- The first entry is replaced, so the one that is looked at stands behind it.
      rw [if_pos hd]
      cases i with
      | zero => exact absurd (Option.some.inj h ▸ hd) hne
      | succ i => exact h
    · rw [if_neg hd]
      cases i with
      | zero => exact h
      | succ i => exact ih h

namespace Collection

/-- **An entry that no file is called by** stays untouched and in its place,
whatever files are registered. -/
theorem getElem?_entries_foldl_register {c : Collection} {files : List SourceFile} {i : Nat}
    {entry : String × String} (h : c.entries[i]? = some entry)
    (hname : entry.1 ∉ files.map (·.name)) :
    (files.foldl register c).entries[i]? = some entry := by
  induction files generalizing c with
  | nil => exact h
  | cons file files ih =>
    rw [List.map_cons, List.mem_cons, not_or] at hname
    exact ih (Entries.getElem?_put_of_ne h hname.1) hname.2

end Collection

/-! ### The prefix -/

namespace FileEmitter

variable {f : FileEmitter} {siblings : Siblings}

/-- One specification that generates is registered, and counts, before the rest
is gone through. -/
theorem populate_cons_of_ok {spec : TypeSpec} {file : SourceFile}
    (h : f.generate spec siblings = .ok file) (specs : List TypeSpec) (c : Collection) :
    f.populate siblings (spec :: specs) c =
      ((f.populate siblings specs (c.register file)).1,
        (f.populate siblings specs (c.register file)).2.map (· + 1)) := by
  rw [populate, h]

/-- One specification that fails ends it, and nothing more is registered. -/
theorem populate_cons_of_error {spec : TypeSpec} {e : Failure}
    (h : f.generate spec siblings = .error e) (specs : List TypeSpec) (c : Collection) :
    f.populate siblings (spec :: specs) c = (c, .error e) := by
  rw [populate, h]

/-- Specifications that all generate are registered one after the other, and
what stands behind them is gone through from there. -/
theorem fst_populate_append {good : List TypeSpec} {files : List SourceFile}
    (h : List.Forall₂ (fun spec file => f.generate spec siblings = .ok file) good files)
    (rest : List TypeSpec) (c : Collection) :
    (f.populate siblings (good ++ rest) c).1 =
      (f.populate siblings rest (files.foldl Collection.register c)).1 := by
  induction h generalizing c with
  | nil => rfl
  | cons hfile _ ih =>
    rw [List.cons_append, populate_cons_of_ok hfile, List.foldl_cons]
    exact ih _

/-- Each of them counts once, whatever its file is called. -/
theorem snd_populate_append {good : List TypeSpec} {files : List SourceFile}
    (h : List.Forall₂ (fun spec file => f.generate spec siblings = .ok file) good files)
    (rest : List TypeSpec) (c : Collection) :
    (f.populate siblings (good ++ rest) c).2 =
      (f.populate siblings rest (files.foldl Collection.register c)).2.map (· + good.length) := by
  induction h generalizing c with
  | nil =>
    show (f.populate siblings rest c).2 = (f.populate siblings rest c).2.map (· + 0)
    cases (f.populate siblings rest c).2 <;> rfl
  | @cons spec file good files hfile _ ih =>
    rw [List.cons_append, populate_cons_of_ok hfile, List.foldl_cons]
    show (f.populate siblings (good ++ rest) (c.register file)).2.map (· + 1) = _
    rw [ih]
    cases (f.populate siblings rest (files.foldl Collection.register (c.register file))).2 with
    | error e => rfl
    | ok n =>
      show Except.ok (n + good.length + 1) = Except.ok (n + (spec :: good).length)
      rw [List.length_cons, Nat.add_assoc]

/-- **The longest prefix that generates**: it is everything, or a specification
that fails comes behind it. -/
theorem exists_longest_prefix (f : FileEmitter) (siblings : Siblings) (specs : List TypeSpec) :
    ∃ good files rest, specs = good ++ rest ∧
      List.Forall₂ (fun spec file => f.generate spec siblings = .ok file) good files ∧
      (rest = [] ∨ ∃ spec later e, rest = spec :: later ∧ f.generate spec siblings = .error e) := by
  induction specs with
  | nil => exact ⟨[], [], [], rfl, .nil, Or.inl rfl⟩
  | cons spec specs ih =>
    cases hfile : f.generate spec siblings with
    | error e => exact ⟨[], [], spec :: specs, rfl, .nil, Or.inr ⟨spec, specs, e, rfl, hfile⟩⟩
    | ok file =>
      obtain ⟨good, files, rest, hsplit, hfiles, hrest⟩ := ih
      exact ⟨spec :: good, file :: files, rest, by rw [hsplit, List.cons_append],
        .cons hfile hfiles, hrest⟩

/-- **Populating registers the longest prefix that generates.** The
specifications are a prefix, each of which has a file, and a rest. The
collection is the one in which these files were registered one after the other.
Either there is no rest, and the outcome is the number of specifications; or the
rest starts with one that fails, and the outcome is its failure. Entries under
names that none of the files has are untouched and in their places. -/
theorem populate_registers_prefix (f : FileEmitter) (siblings : Siblings) (specs : List TypeSpec)
    (c : Collection) :
    ∃ good files rest, specs = good ++ rest ∧
      List.Forall₂ (fun spec file => f.generate spec siblings = .ok file) good files ∧
      (f.populate siblings specs c).1 = files.foldl Collection.register c ∧
      ((rest = [] ∧ (f.populate siblings specs c).2 = .ok specs.length) ∨
        ∃ spec later e, rest = spec :: later ∧ f.generate spec siblings = .error e ∧
          (f.populate siblings specs c).2 = .error e) ∧
      ∀ (i : Nat) (entry : String × String), c.entries[i]? = some entry →
        entry.1 ∉ files.map (·.name) →
        (f.populate siblings specs c).1.entries[i]? = some entry := by
  obtain ⟨good, files, rest, rfl, hfiles, hrest⟩ := exists_longest_prefix f siblings specs
  have hfirst : (f.populate siblings (good ++ rest) c).1 = files.foldl Collection.register c := by
    rw [fst_populate_append hfiles]
    rcases hrest with rfl | ⟨spec, later, e, rfl, hfail⟩
    · rfl
    · rw [populate_cons_of_error hfail]
  refine ⟨good, files, rest, rfl, hfiles, hfirst, ?_, fun i entry hentry hname => ?_⟩
  · rcases hrest with rfl | ⟨spec, later, e, rfl, hfail⟩
    · refine Or.inl ⟨rfl, ?_⟩
      rw [snd_populate_append hfiles, List.append_nil]
      show Except.ok (0 + good.length) = _
      rw [Nat.zero_add]
    · refine Or.inr ⟨spec, later, e, rfl, hfail, ?_⟩
      rw [snd_populate_append hfiles, populate_cons_of_error hfail]
      rfl
  · rw [hfirst]
    exact Collection.getElem?_entries_foldl_register hentry hname

end FileEmitter

end SharpSource
