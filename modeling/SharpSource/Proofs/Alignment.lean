import SharpSource.Command.Report
import SharpSource.Proofs.Independence

/-!
# Entries and their files side by side

Generation goes through the entries in order and registers the file of each
under its name, and a report pairs the entries with the names of the files by
their places. A file that is registered under a name that is there already
takes the place of the earlier one, and from there on the report would pair
entries with the files of others. This cannot happen: a file is called by its
entry (`Manifest.name_of_fileOf`), and the entries of a manifest that passes
have different names. So each file goes to the end
(`Collection.entries_register`), and the collection holds one file for each
entry in the order of the entries (`Manifest.entries_of_collect`).
-/

namespace SharpSource

/-! ### Registering under new names -/

/-- A value under a key that is new goes to the end. -/
theorem Entries.put_eq_append {κ α : Type} [DecidableEq κ] {key : κ} {value : α}
    {l : List (κ × α)} (h : key ∉ l.map (·.1)) : put key value l = l ++ [(key, value)] := by
  induction l with
  | nil => rfl
  | cons e l ih =>
    rw [List.map_cons, List.mem_cons, not_or] at h
    rw [put, if_neg (Ne.symm h.1), ih h.2, List.cons_append]

/-- A file as an entry of a collection. -/
def SourceFile.entry (f : SourceFile) : String × String :=
  (f.name, f.content)

namespace Collection

/-- **One file**: under a new name it goes to the end. -/
theorem entries_register {c : Collection} {file : SourceFile} (h : file.name ∉ c.names) :
    (c.register file).entries = c.entries ++ [file.entry] :=
  Entries.put_eq_append h

/-- **File after file**: under new names they stand behind each other. -/
theorem entries_foldl_register {c : Collection} {files : List SourceFile}
    (h : (c.names ++ files.map (·.name)).Nodup) :
    (files.foldl register c).entries = c.entries ++ files.map SourceFile.entry := by
  induction files generalizing c with
  | nil => simp
  | cons file files ih =>
    rw [List.map_cons] at h
    have hnew : file.name ∉ c.names := fun hmem =>
      (List.nodup_append.mp h).2.2 _ hmem _ (List.mem_cons_self ..) rfl
    have hnames : (c.register file).names = c.names ++ [file.name] := by
      rw [register, Catalog.names_put, if_neg hnew]
    rw [List.foldl_cons, ih, entries_register hnew, List.append_assoc]
    · rfl
    · rw [hnames, List.append_assoc]
      exact h

end Collection

/-! ### The name of a file -/

/-- A file is named as the emitter names the target. -/
theorem FileEmitter.name_of_generate {f : FileEmitter} {spec : TypeSpec} {siblings : Siblings}
    {file : SourceFile} (h : f.generate spec siblings = .ok file) : file.name = f.nameOf spec := by
  obtain ⟨-, -, -, -, -, -, -, -, -, -, -, rfl⟩ := generate_eq_ok_iff.mp h
  rfl

theorem TypeSpec.target_of_ofDesc {d : TypeDesc} {others : List Descriptor} {spec : TypeSpec}
    (h : ofDesc d others = .ok spec) : spec.target = .desc d := by
  obtain ⟨declarations, -, ⟨⟩⟩ := Outcome.bind_eq_ok_iff.mp h
  rfl

namespace Manifest

variable {m : Manifest} {settings : Settings}

/-- The name of the file of an entry: that of the entry with the suffix of all
files. -/
def fileName (m : Manifest) (e : TypeEntry) : String :=
  e.name ++ m.options.suffix.getD ".g.cs"

theorem suffix_of_settings (h : m.settings = .ok settings) :
    settings.suffix = m.options.suffix.getD ".g.cs" := by
  obtain ⟨indent, -, ⟨⟩⟩ := Outcome.bind_eq_ok_iff.mp h
  rfl

/-- **A file is called by its entry.** -/
theorem name_of_fileOf (hsettings : m.settings = .ok settings) {siblings : Siblings}
    {e : TypeEntry} {file : SourceFile} (h : m.fileOf settings siblings e = .ok file) :
    file.name = m.fileName e := by
  rw [fileOf_eq] at h
  obtain ⟨spec, hspec, h⟩ := Outcome.bind_eq_ok_iff.mp h
  have htarget : (e.documented spec).targetName = e.name := by
    rw [TypeSpec.targetName, TypeEntry.documented_eq,
      TypeSpec.target_of_ofDesc (emitting_eq_ok_iff.mp hspec)]
    exact m.name_describe e
  rw [FileEmitter.name_of_generate (emitting_eq_ok_iff.mp h), TypeEntry.fileEmitter_eq]
  change (e.documented spec).targetName ++ settings.suffix = _
  rw [htarget, suffix_of_settings hsettings, fileName]

/-- Entries with different names have files with different names. -/
theorem nodup_map_fileName {es : List TypeEntry} (h : (es.map (·.name)).Nodup) :
    (es.map m.fileName).Nodup := by
  have happend : es.map m.fileName =
      (es.map (·.name)).map (· ++ m.options.suffix.getD ".g.cs") := by
    rw [List.map_map]
    rfl
  rw [happend]
  exact h.map fun a b hab => String.append_left_inj _ |>.mp hab

/-! ### Going through the entries -/

/-- The files of some of the entries, registered one after the other. -/
def collect (m : Manifest) (settings : Settings) (es : List TypeEntry) :
    Except ManifestError Collection :=
  es.foldlM (fun c e => do
    let file ← m.fileOf settings m.siblings e
    return c.register file) .empty

theorem generate_eq_collect (hsettings : m.settings = .ok settings) :
    m.generate = m.collect settings m.types := by
  rw [generate, hsettings]
  rfl

/-- Files made one by one are called by their entries. -/
theorem map_name_of_forall₂ (hsettings : m.settings = .ok settings) {es : List TypeEntry}
    {files : List SourceFile}
    (h : List.Forall₂ (fun e f => m.fileOf settings m.siblings e = .ok f) es files) :
    files.map (·.name) = es.map m.fileName := by
  induction h with
  | nil => rfl
  | cons hfile _ ih => rw [List.map_cons, List.map_cons, ih, name_of_fileOf hsettings hfile]

/-- **What is collected** from entries with different names is the file of each,
in their order. -/
theorem entries_of_collect (hsettings : m.settings = .ok settings) {es : List TypeEntry}
    (hnodup : (es.map (·.name)).Nodup) {c : Collection} (h : m.collect settings es = .ok c) :
    ∃ files, List.Forall₂ (fun e f => m.fileOf settings m.siblings e = .ok f) es files ∧
      c.entries = files.map SourceFile.entry := by
  rw [collect, Outcome.foldlM_eq_map_mapM] at h
  obtain ⟨files, hfiles, rfl⟩ := Outcome.map_eq_ok_iff.mp h
  have hall := Outcome.mapM_eq_ok_iff.mp hfiles
  refine ⟨files, hall, ?_⟩
  rw [Collection.entries_foldl_register]
  · rfl
  · change (files.map (·.name)).Nodup
    rw [map_name_of_forall₂ hsettings hall]
    exact nodup_map_fileName hnodup

theorem names_of_collect (hsettings : m.settings = .ok settings) {es : List TypeEntry}
    (hnodup : (es.map (·.name)).Nodup) {c : Collection} (h : m.collect settings es = .ok c) :
    c.names = es.map m.fileName := by
  obtain ⟨files, hall, hentries⟩ := entries_of_collect hsettings hnodup h
  rw [← map_name_of_forall₂ hsettings hall, Catalog.names, hentries, List.map_map]
  rfl

/-- **When its turn comes** an entry has a file, whose name is not collected
yet. -/
theorem exists_collect_before (hsettings : m.settings = .ok settings)
    {before behind : List TypeEntry} {e : TypeEntry}
    (hnodup : ((before ++ e :: behind).map (·.name)).Nodup) {c : Collection}
    (h : m.collect settings (before ++ e :: behind) = .ok c) :
    ∃ c₀ f, m.collect settings before = .ok c₀ ∧ m.fileOf settings m.siblings e = .ok f ∧
      f.name ∉ c₀.names := by
  rw [collect, List.foldlM_append] at h
  obtain ⟨c₀, hc₀, hrest⟩ := Outcome.bind_eq_ok_iff.mp h
  rw [List.foldlM_cons] at hrest
  obtain ⟨c₁, hc₁, -⟩ := Outcome.bind_eq_ok_iff.mp hrest
  obtain ⟨f, hf, -⟩ := Outcome.bind_eq_ok_iff.mp hc₁
  refine ⟨c₀, f, hc₀, hf, ?_⟩
  have hfileNames := nodup_map_fileName (m := m) hnodup
  rw [List.map_append, List.map_cons] at hnodup hfileNames
  rw [names_of_collect hsettings (List.nodup_append.mp hnodup).1 hc₀, name_of_fileOf hsettings hf]
  intro hmem
  exact (List.nodup_append.mp hfileNames).2.2 _ hmem _ (List.mem_cons_self ..) rfl

/-- **One file for each entry**: when a manifest that passes is generated, there
are as many files as entries. The file at a place is called by the entry at that
place and is the one that the entry has for itself. None of them took the place
of another, for the name of each was new when it was registered. And the report
has a line for each entry with the name of its own file. -/
theorem generate_aligned {source file : String} {c : Collection}
    (hvalid : m.validate source file = .ok ()) (h : m.generate = .ok c) :
    c.size = m.types.length ∧
    List.Forall₂ (fun e entry => entry.1 = m.fileName e ∧ m.fileFor e = .ok ⟨entry.1, entry.2⟩)
      m.types c.entries ∧
    (∀ before e behind, m.types = before ++ e :: behind →
      ∃ settings c₀ f, m.settings = .ok settings ∧ m.collect settings before = .ok c₀ ∧
        m.fileOf settings m.siblings e = .ok f ∧ f.name ∉ c₀.names) ∧
    ∀ path, Report.check path m c =
      ["✓ " ++ path ++ " is valid", "",
        Report.heading (Report.counted m.types.length "type")] ++
      m.types.map fun e => Report.item (Report.typeSummary e (m.fileName e)) := by
  obtain ⟨settings, hsettings, -⟩ := Outcome.bind_eq_ok_iff.mp h
  rw [generate_eq_collect hsettings] at h
  have hnodup := (named_of_validate hvalid).nodup
  obtain ⟨files, hall, hentries⟩ := entries_of_collect hsettings hnodup h
  refine ⟨?_, ?_, ?_, ?_⟩
  · rw [Catalog.size, hentries, List.length_map, hall.length_eq]
  · rw [hentries, List.forall₂_map_right_iff]
    refine hall.imp fun e f hf => ⟨name_of_fileOf hsettings hf, ?_⟩
    rw [fileFor, hsettings]
    exact hf
  · intro before e behind htypes
    rw [htypes] at hnodup h
    exact ⟨settings, by simpa [hsettings] using exists_collect_before hsettings hnodup h⟩
  · intro path
    -- The names that the entries are paired with are made of the entries themselves.
    rw [Report.check, names_of_collect hsettings hnodup h, ← List.map_prod_left_eq_zip,
      List.length_map, List.map_map]
    rfl

/-- Two entries, one of them in a namespace: their files are called `Item.cs`
and `Order.cs`. -/
theorem generate_aligned_two :
    let item : TypeEntry := { name := "Item", kind := some .structType, emitters := [] }
    let order : TypeEntry :=
      { name := "Order", ns := some "Shop", members := [{ name := "First", type := "Item?" }] }
    let m : Manifest := { options := { suffix := some ".cs" }, types := [item, order] }
    m.validate "" "shop.toml" = .ok () ∧ ∃ c, m.generate = .ok c ∧ c.size = 2 ∧
      Report.check "shop.toml" m c = ["✓ shop.toml is valid", "", "2 types:",
        "  - Item (struct, 0 members; no emitters) -> Item.cs",
        "  - Shop.Order (class, 1 member; properties) -> Order.cs"] := by
  intro item order m
  have hvalid : m.validate "" "shop.toml" = .ok () := by decide +kernel
  obtain ⟨c, hc⟩ : ∃ c, m.generate = .ok c := by
    have hsome : m.generate.toOption.isSome := by decide +kernel
    cases hm : m.generate with
    | ok c => exact ⟨c, rfl⟩
    | error err =>
      rw [hm] at hsome
      cases hsome
  obtain ⟨hsize, -, -, hreport⟩ := generate_aligned hvalid hc
  refine ⟨hvalid, c, hc, hsize, (hreport _).trans ?_⟩
  decide +kernel

end Manifest

end SharpSource
