import Mathlib.Data.Finset.Card
import SharpSource.Proofs.Alignment
import SharpSource.Proofs.UsingBlocks

/-!
# What a collection remembers

Files come into a collection by three kinds of calls: one at a time, as a name
and a text or as a file, and several at once. Nothing is ever taken out. So a
collection is told by all registrations, those that made it what it was before
among them, and it remembers two things of them. The first registration of a
name decides its place, and the last one its text.

Both are said of any catalog to which values are put one after the other
(`Catalog.names_putAll`, `Catalog.get?_putAll`). The two questions never meet:
which names there are is settled without looking at a value, and the value under
a name without looking at its place. That a catalog is asked for a name and that
it is gone through give the same then comes from each name standing in it once
(`Catalog.mem_entries_iff`).
-/

namespace SharpSource

/-! ### The value that comes last -/

namespace Entries

variable {κ α : Type} [DecidableEq κ] {key : κ} {value : α} {l : List (κ × α)}

/-- The value that stands under a key **last**. -/
def last? (key : κ) (l : List (κ × α)) : Option α :=
  get? key l.reverse

theorem last?_concat (key : κ) (l : List (κ × α)) (e : κ × α) :
    last? key (l ++ [e]) = if key = e.1 then some e.2 else last? key l := by
  rw [last?, List.reverse_append, List.reverse_singleton, List.singleton_append, get?,
    List.find?_cons]
  by_cases h : key = e.1
  · simp [h]
  · have h' : (e.1 == key) = false := by simpa using fun hn => h hn.symm
    rw [h', if_neg h]
    rfl

/-- With each key once, a value is found under a key exactly when it stands
there. -/
theorem get?_eq_some_iff (h : (l.map (·.1)).Nodup) :
    get? key l = some value ↔ (key, value) ∈ l := by
  induction l with
  | nil => simp [get?]
  | cons e l ih =>
    rw [List.map_cons, List.nodup_cons] at h
    rw [List.mem_cons, ← ih h.2]
    by_cases he : e.1 = key
    · -- The key is not found behind its entry.
      have hbehind : get? key l ≠ some value := fun hget => by
        rw [ih h.2] at hget
        exact h.1 (he ▸ List.mem_map_of_mem (f := (·.1)) hget)
      rw [or_iff_left hbehind, Prod.ext_iff]
      simp [get?, he, eq_comm]
    · have hne : (key, value) ≠ e := fun hn => he (hn ▸ rfl)
      rw [or_iff_right hne]
      simp [get?, he]

/-- With each key once, the last value under a key is the only one. -/
theorem last?_eq_get? (h : (l.map (·.1)).Nodup) : last? key l = get? key l := by
  have hreverse : (l.reverse.map (·.1)).Nodup := by
    rw [List.map_reverse]
    exact List.nodup_reverse.mpr h
  refine Option.ext fun value => ?_
  rw [last?, get?_eq_some_iff hreverse, List.mem_reverse, get?_eq_some_iff h]

/-- What is in front of a value under its key does not matter. -/
theorem last?_append_of_mem {l' : List (κ × α)} (h : (l'.map (·.1)).Nodup)
    (hmem : (key, value) ∈ l') :
    last? key (l ++ l') = some value := by
  have hlast : last? key l' = some value := (last?_eq_get? h).trans ((get?_eq_some_iff h).mpr hmem)
  obtain ⟨e, hfound, rfl⟩ := Option.map_eq_some_iff.mp hlast
  rw [last?, List.reverse_append, get?, List.find?_append, hfound]
  rfl

end Entries

/-! ### First places -/

/-- A text at the end of a list has its first place there, or an earlier one. -/
theorem Text.distinct_concat (l : List String) (s : String) :
    distinct (l ++ [s]) = if s ∈ l then distinct l else distinct l ++ [s] := by
  induction l with
  | nil => simp [distinct]
  | cons a l ih =>
    rw [List.cons_append, distinct, ih, distinct]
    by_cases hmem : s ∈ l
    · rw [if_pos hmem, if_pos (List.mem_cons_of_mem a hmem)]
    · rw [if_neg hmem, List.filter_append]
      by_cases ha : s = a <;> simp [hmem, ha]

/-! ### Putting one value after the other -/

namespace Catalog

variable {α : Type}

theorem putAll_concat (c : Catalog α) (items : List (String × α)) (e : String × α) :
    c.putAll (items ++ [e]) = (c.putAll items).put e.1 e.2 :=
  List.foldl_concat _ c e items

/-- **The names stand in the order of their first places**: those that were
there first, and then the new ones. -/
theorem names_putAll (c : Catalog α) (items : List (String × α)) :
    (c.putAll items).names = Text.distinct (c.names ++ items.map (·.1)) := by
  induction items using List.reverseRecOn with
  | nil =>
    rw [List.map_nil, List.append_nil]
    exact (Text.distinct_eq_self c.nodup).symm
  | append_singleton items e ih =>
    rw [putAll_concat, names_put, ih, List.map_append, List.map_singleton, ← List.append_assoc,
      Text.distinct_concat]
    simp only [Text.mem_distinct]

/-- **The value under a name is the one that was put there last.** -/
theorem get?_putAll (c : Catalog α) (items : List (String × α)) (name : String) :
    (c.putAll items).get? name = Entries.last? name (c.entries ++ items) := by
  induction items using List.reverseRecOn with
  | nil =>
    rw [List.append_nil, Entries.last?_eq_get? c.nodup]
    rfl
  | append_singleton items e ih =>
    rw [putAll_concat, get?_put, ih, ← List.append_assoc, Entries.last?_concat]

/-- A value that is put under its name only is found there. -/
theorem get?_putAll_of_mem {c : Catalog α} {items : List (String × α)} {name : String} {value : α}
    (hnodup : (items.map (·.1)).Nodup) (h : (name, value) ∈ items) :
    (c.putAll items).get? name = some value :=
  (get?_putAll c items name).trans (Entries.last?_append_of_mem hnodup h)

/-- Asking for a name and going through the entries give the same. -/
theorem mem_entries_iff {c : Catalog α} {name : String} {value : α} :
    (name, value) ∈ c.entries ↔ c.get? name = some value :=
  (Entries.get?_eq_some_iff c.nodup).symm

theorem contains_iff {c : Catalog α} {name : String} : c.contains name = true ↔ name ∈ c.names := by
  rw [contains, Option.isSome_iff_exists, names, List.mem_map]
  simp only [← mem_entries_iff]
  constructor
  · rintro ⟨value, hmem⟩
    exact ⟨_, hmem, rfl⟩
  · rintro ⟨e, hmem, rfl⟩
    exact ⟨e.2, hmem⟩

end Catalog

/-! ### Calls -/

namespace Collection

/-- A **call** that puts files into a collection. -/
inductive Call where
  /-- A text is registered under a name. -/
  | register (name content : String)
  /-- A file is registered. -/
  | registerFile (file : SourceFile)
  /-- Files are registered one after the other. -/
  | extend (files : List SourceFile)
  deriving DecidableEq, Repr

namespace Call

/-- What a call makes of a collection. -/
def apply (c : Collection) : Call → Collection
  | register name content => c.put name content
  | registerFile file => c.register file
  | extend files => c.extend files

/-- The names and texts that a call registers, in order. -/
def registrations : Call → List (String × String)
  | register name content => [(name, content)]
  | registerFile file => [file.entry]
  | extend files => files.map SourceFile.entry

end Call

/-- The collection after some calls. -/
def run (c : Collection) (calls : List Call) : Collection :=
  calls.foldl Call.apply c

theorem extend_eq_putAll (c : Collection) (files : List SourceFile) :
    c.extend files = c.putAll (files.map SourceFile.entry) := by
  rw [extend, Catalog.putAll, List.foldl_map]
  rfl

/-- Each call puts what it registers. -/
theorem apply_eq_putAll (c : Collection) (call : Call) :
    call.apply c = c.putAll call.registrations := by
  cases call with
  | register name content => rfl
  | registerFile file => rfl
  | extend files => exact c.extend_eq_putAll files

/-- **Calls put what they register**, one registration after the other. -/
theorem run_eq_putAll (c : Collection) (calls : List Call) :
    c.run calls = c.putAll (calls.flatMap Call.registrations) := by
  induction calls generalizing c with
  | nil => rfl
  | cons call calls ih =>
    change (call.apply c).run calls = _
    rw [ih, apply_eq_putAll, List.flatMap_cons, Catalog.putAll, Catalog.putAll, Catalog.putAll,
      List.foldl_append]

/-- **Places of the first, texts of the last.** After any calls on any
collection, each name stands there once: those of the collection in their order,
and then the others in the order in which they were first registered. Each has
the text that was registered under it last, or the one it had where it was not
registered again. Asking for a name, whether it is there, and how many there are
agree with the entries. A collection made of files is the empty one in which
they were registered one by one. -/
theorem run_keeps_last (c : Collection) (calls : List Call) :
    let registered := c.entries ++ calls.flatMap Call.registrations
    let after := c.run calls
    after.names = Text.distinct (registered.map (·.1)) ∧ after.names.Nodup ∧
    (∀ e ∈ after.entries, Entries.last? e.1 registered = some e.2) ∧
    (∀ name content, after.get? name = some content ↔ (name, content) ∈ after.entries) ∧
    (∀ name, after.contains name = true ↔ name ∈ after.names) ∧
    after.size = (registered.map (·.1)).toFinset.card ∧
    ∀ files, ofFiles files = run .empty (files.map .registerFile) := by
  intro registered after
  have hrun : after = c.putAll (calls.flatMap Call.registrations) := c.run_eq_putAll calls
  have hnames : after.names = Text.distinct (registered.map (·.1)) := by
    rw [hrun, Catalog.names_putAll, List.map_append]
    rfl
  refine ⟨hnames, after.nodup, fun e he => ?_, fun name content => Catalog.mem_entries_iff.symm,
    fun name => Catalog.contains_iff, ?_, fun files => ?_⟩
  · have hget : after.get? e.1 = some e.2 := Catalog.mem_entries_iff.mp he
    rwa [hrun, Catalog.get?_putAll] at hget
  · have hsize : after.size = after.names.length := (List.length_map _).symm
    have hnodup : after.names.Nodup := after.nodup
    rw [hsize, ← List.toFinset_card_of_nodup hnodup]
    refine congrArg Finset.card (Finset.ext fun name => ?_)
    rw [List.mem_toFinset, List.mem_toFinset, hnames, Text.mem_distinct]
  · rw [run_eq_putAll, ofFiles, extend_eq_putAll, List.flatMap_map]
    exact congrArg _ (List.map_eq_flatMap ..)

/-- A name that is registered again keeps its place. -/
example : ((ofFiles [⟨"A.cs", "a"⟩]).run
    [.register "B.cs" "b", .extend [⟨"C.cs", "c"⟩, ⟨"A.cs", "a'"⟩],
      .registerFile ⟨"C.cs", "c'"⟩]).entries =
      [("A.cs", "a'"), ("B.cs", "b"), ("C.cs", "c'")] := by
  decide

end Collection

end SharpSource
