import SharpSource.Proofs.Occurrences
import SharpSource.Proofs.WellFormed
import SharpSource.Proofs.WrittenNames

/-!
# Labels on names that clash

When two entries of a manifest share a name, the error points at two places. The
entries do not know where their names stand, so the places are looked for: the
text is searched for the key and the name in quotes, and the first two places
are taken, whatever they belong to.

What is found is known exactly. The pattern is borderless for every identifier
(`Location.borderless_assignment`), so the search finds all places where the
text assigns the name, in their order (`Location.assigns_iff`). What should be
found is known from the document (`Manifest.writtenNames?`). So the labels are
on the two names that clash exactly when no member, no type around an entry and
no comment assigns the name in front of the second of them
(`Manifest.duplicate_labels_cover_iff`).
-/

namespace SharpSource

/-- **A label covers a value** in quotes when it is all of it but one byte at
each end. -/
def Span.Covers (label value : Span) : Prop :=
  label.start = value.start + 1 ∧ label.stop + 1 = value.stop

instance (label value : Span) : Decidable (label.Covers value) :=
  inferInstanceAs (Decidable (_ ∧ _))

/-! ### Where a text assigns a name -/

namespace Location

open Text (OccursIn Borderless)

/-- The text that gives a name, up to the second quote. -/
def assignment (name : String) : String :=
  "name = \"" ++ name ++ "\""

/-- **A text assigns a name** where it gives it under its key, between double
quotes and with one blank on each side of the equals sign: the value from quote
to quote. -/
def Assigns (source name : String) (value : Span) : Prop :=
  ∃ offset, OccursIn (assignment name).toList source.toList offset ∧
    value = ⟨offset + 7, offset + 9 + name.utf8ByteSize⟩

/-- **No two assignments of a name overlap**, as long as the name has no quote
and no blank in it: what starts and ends with the same part is cut at a quote,
and the first one has a blank in front of it. -/
theorem borderless_assignment {name : String} (h : ∀ c ∈ name.toList, c ≠ '"' ∧ c ≠ ' ') :
    Borderless (assignment name).toList := by
  have hlist : (assignment name).toList = "name = ".toList ++ '"' :: (name.toList ++ ['"']) := by
    simp [assignment]
  intro w hne hstart hend
  rw [hlist] at hstart hend ⊢
  obtain ⟨v, c, rfl⟩ := (List.eq_nil_or_concat w).resolve_left hne
  rw [List.concat_eq_append] at hstart hend ⊢
  obtain ⟨front, hfront⟩ := hend
  rw [← List.append_assoc, ← List.cons_append, ← List.append_assoc] at hfront
  obtain ⟨hbody, hc⟩ := List.append_inj' hfront rfl
  obtain rfl : c = '"' := by simpa using hc
  obtain ⟨tail, htail⟩ := hstart
  rcases List.eq_nil_or_concat tail with rfl | ⟨tail, d, rfl⟩
  · rw [← htail, List.append_nil]
  · -- The part ends at the first quote, and then a blank is in the name.
    have hsplit : v ++ '"' :: tail = "name = ".toList ++ '"' :: name.toList := by
      rw [List.concat_eq_append, ← List.append_assoc, ← List.cons_append,
        ← List.append_assoc] at htail
      simpa using (List.append_inj' htail rfl).1
    have hquote : '"' ∉ name.toList := fun hmem => (h _ hmem).1 rfl
    obtain ⟨hv, -, -⟩ := (List.append_cons_inj_of_notMem (by decide) hquote).mp hsplit.symm
    rw [← hv] at hbody
    rcases List.eq_nil_or_concat name.toList with hname | ⟨cs, c, hname⟩
    · have hlast := congrArg List.getLast? hbody
      rw [hname] at hlast
      simp at hlast
    · have hend : "name = ".toList ++ '"' :: cs ++ [c] = front ++ "name = ".toList := by
        simpa [hname] using hbody.symm
      have hlast := congrArg List.getLast? hend
      rw [List.getLast?_concat] at hlast
      exact absurd (by simpa using hlast) (h c (by simp [hname])).2

/-- The label of an assignment covers its value, and no other. -/
theorem covers_iff {offset length : Nat} {value : Span} :
    Span.Covers ⟨offset + 8, offset + 8 + length⟩ value ↔
      value = ⟨offset + 7, offset + 9 + length⟩ := by
  obtain ⟨start, stop⟩ := value
  simp only [Span.Covers, Span.mk.injEq]
  omega

/-- **The first two** of ascending numbers are two of them, with no others in
front of the second. -/
theorem first_two_iff {first second : Nat} {others : List Nat}
    (hsorted : (first :: second :: others).Pairwise (· < ·)) {x y : Nat} :
    x = first ∧ y = second ↔ x ∈ first :: second :: others ∧ y ∈ first :: second :: others ∧ x < y ∧
      ∀ z ∈ first :: second :: others, z = x ∨ y ≤ z := by
  obtain ⟨hfirst, hrest⟩ := List.pairwise_cons.mp hsorted
  have hlt : first < second := hfirst second (List.mem_cons_self ..)
  have hle : ∀ z ∈ first :: second :: others, z = first ∨ second ≤ z :=
    List.forall_mem_cons.mpr ⟨.inl rfl, List.forall_mem_cons.mpr ⟨.inr (Nat.le_refl second),
      fun z hz => .inr (Nat.le_of_lt ((List.pairwise_cons.mp hrest).1 z hz))⟩⟩
  constructor
  · rintro ⟨rfl, rfl⟩
    exact ⟨List.mem_cons_self .., List.mem_cons_of_mem x (List.mem_cons_self ..), hlt, hle⟩
  · rintro ⟨hx, hy, hxy, honly⟩
    have hone := honly first (List.mem_cons_self ..)
    have htwo := honly second (List.mem_cons_of_mem first (List.mem_cons_self ..))
    replace hx := hle x hx
    replace hy := hle y hy
    omega

section Found

variable {source name : String} (hname : Identifier.IsIdentifier name)
include hname

/-- An identifier has neither quotes nor blanks. -/
theorem ne_of_mem_identifier : ∀ c ∈ name.toList, c ≠ '"' ∧ c ≠ ' ' := by
  have hquote : Identifier.isContinue '"' = false := by
    simp only [Identifier.isContinue, Text.isLetterOrNumeral, Text.isLetter, Text.isNumeral,
      Text.inRanges_eq_any_toList]
    decide +kernel
  have hblank : Identifier.isContinue ' ' = false :=
    Identifier.isContinue_eq_false_of_isBlank (by decide)
  intro c hc
  have hcontinue := hname.isContinue c hc
  constructor
  · rintro rfl
    rw [hquote] at hcontinue
    cases hcontinue
  · rintro rfl
    rw [hblank] at hcontinue
    cases hcontinue

/-- **The search finds where the text assigns the name**, and nothing else. -/
theorem assigns_iff {value : Span} : Assigns source name value ↔
    ∃ o ∈ Text.offsetsOf (assignment name) source, value = ⟨o + 7, o + 9 + name.utf8ByteSize⟩ := by
  simp only [Assigns, Text.mem_offsetsOf_iff (by simp [assignment] : assignment name ≠ "")
    (borderless_assignment (ne_of_mem_identifier hname))]

/-- **The first two places** are on two values exactly when the text assigns the
name in both, one after the other, and nowhere else in front of the second. -/
theorem first_two_cover_iff {first second : Span} {others : List Span}
    (hfound : findAll source name = first :: second :: others) (value value' : Span) :
    first.Covers value ∧ second.Covers value' ↔
      Assigns source name value ∧ Assigns source name value' ∧ value.start < value'.start ∧
        ∀ v, Assigns source name v → v = value ∨ value'.start ≤ v.start := by
  obtain ⟨o₁, rest, hoffsets, rfl, hrest⟩ := List.map_eq_cons_iff.mp hfound
  obtain ⟨o₂, os, rfl, rfl, -⟩ := List.map_eq_cons_iff.mp hrest
  have hsorted : (o₁ :: o₂ :: os).Pairwise (· < ·) :=
    hoffsets ▸ Text.pairwise_offsetsOf (by simp) source
  have hassigns : ∀ v, Assigns source name v ↔
      ∃ o ∈ o₁ :: o₂ :: os, v = ⟨o + 7, o + 9 + name.utf8ByteSize⟩ := fun v =>
    hoffsets ▸ assigns_iff hname
  rw [covers_iff, covers_iff]
  simp only [hassigns]
  constructor
  · rintro ⟨rfl, rfl⟩
    obtain ⟨h₁, h₂, hlt, honly⟩ := (first_two_iff hsorted).mp ⟨rfl, rfl⟩
    refine ⟨⟨o₁, h₁, rfl⟩, ⟨o₂, h₂, rfl⟩, Nat.add_lt_add_right hlt 7, ?_⟩
    rintro - ⟨o, ho, rfl⟩
    exact (honly o ho).imp (fun heq => by rw [heq]) fun hle => Nat.add_le_add_right hle 7
  · rintro ⟨⟨o, ho, rfl⟩, ⟨o', ho', rfl⟩, hlt, honly⟩
    have hoffset : ∀ z ∈ o₁ :: o₂ :: os, z = o ∨ o' ≤ z := fun z hz =>
      (honly _ ⟨z, hz, rfl⟩).imp (fun heq => Nat.add_right_cancel (congrArg Span.start heq))
        Nat.le_of_add_le_add_right
    obtain ⟨rfl, rfl⟩ :=
      (first_two_iff hsorted).mpr ⟨ho, ho', Nat.lt_of_add_lt_add_right hlt, hoffset⟩
    exact ⟨rfl, rfl⟩

end Found

end Location

/-! ### Which checks report a clash -/

namespace Check

/-- **A check of one thing** never reports that two entries share a name. -/
def Single (c : Check) : Prop :=
  ∀ file name first second, c ≠ .error (.duplicateType file name first second)

theorem Single.ok : Single (.ok ()) :=
  fun _ _ _ _ h => by cases h

theorem Single.bind {c : Check} {next : Unit → Check} (h : Single c)
    (hnext : ∀ u, Single (next u)) :
    Single (c >>= next) := by
  intro file name first second herror
  rcases Outcome.bind_eq_error_iff.mp herror with hc | ⟨u, -, hu⟩
  · exact h file name first second hc
  · exact hnext u file name first second hu

theorem Single.forM {α : Type} {check : α → Check} (h : ∀ x, Single (check x)) (xs : List α) :
    Single (xs.forM check) := by
  induction xs with
  | nil => exact .ok
  | cons x xs ih => exact (h x).bind fun _ => ih

end Check

namespace Scope

open Check (Single)

variable {s : Scope}

theorem single_fail (p : Problem) (span : Option Span) : Single (s.fail p span) :=
  fun _ _ _ _ h => by cases h

theorem single_checkIdentifier (name sort : String) : Single (s.checkIdentifier name sort) := by
  rw [checkIdentifier]
  cases Identifier.fault? name with
  | none => exact .ok
  | some fault => exact fun _ _ _ _ h => by cases h

theorem single_checkName (name sort : String) : Single (s.checkName name sort) := by
  rw [checkName]
  split
  · exact fun _ _ _ _ h => by cases h
  · exact single_checkIdentifier name sort

theorem single_checkNamespace (ns : String) : Single (s.checkNamespace ns) := by
  rw [checkNamespace]
  split
  · exact single_fail _ _
  · exact .forM (fun part => single_checkName part _) _

theorem single_checkKind (kind : TypeKind) (record : Bool) : Single (s.checkKind kind record) := by
  rw [checkKind]
  split
  · exact single_fail _ _
  · split
    · exact single_fail _ _
    · exact .ok

theorem single_checkAccessibility (a : Accessibility) : Single (s.checkAccessibility a) := by
  rw [checkAccessibility]
  cases a.keyword? with
  | some _ => exact .ok
  | none => exact single_fail _ _

theorem single_checkContaining (e : ContainingEntry) : Single (s.checkContaining e) :=
  (single_checkName _ _).bind fun _ =>
    (single_checkKind _ _).bind fun _ => single_checkAccessibility _

theorem single_checkMember (m : MemberEntry) : Single (s.checkMember m) := by
  refine (single_checkIdentifier _ _).bind fun _ => ?_
  show Single (if _ then _ else _)
  split
  · exact single_fail _ _
  · exact .forM single_checkAccessibility _

/-- **No check inside an entry** reports a clash. -/
theorem single_checkEntry (e : TypeEntry) : Single (s.checkEntry e) := by
  have hns : Single (e.ns.forM s.checkNamespace) := by
    cases e.ns with
    | none => exact .ok
    | some ns => exact single_checkNamespace ns
  exact hns.bind fun _ => (single_checkKind _ _).bind fun _ => (single_checkAccessibility _).bind
    fun _ => (Single.forM (single_checkName · _) _).bind fun _ =>
      (Single.forM single_checkContaining _).bind fun _ => .forM single_checkMember _

/-- **A clash is reported** for a name in order that was seen before and that
the text gives at least twice, at the first two places. -/
theorem checkNext_eq_duplicate {seen : List String} {e : TypeEntry} {file name : String}
    {first second : Span}
    (h : s.checkNext seen e = .error (.duplicateType file name first second)) :
    Identifier.IsIdentifier name ∧ e.name = name ∧ e.name ∈ seen ∧
      ∃ others, Location.findAll s.source name = first :: second :: others := by
  rcases Outcome.bind_eq_error_iff.mp h with hname | ⟨⟨⟩, hname, hrest⟩
  · exact absurd hname (single_checkName _ _ _ _ _ _)
  · split at hrest
    · rename_i hseen
      rw [duplicateError] at hrest
      split at hrest
      · rename_i first' second' others hfound
        cases hrest
        exact ⟨(checkName_ok_iff.mp hname).2, rfl, hseen, others, hfound⟩
      · cases hrest
    · exact absurd hrest (single_checkEntry _ _ _ _ _)

/-- Entries that do not pass have a first one that does not, behind entries that
do. -/
theorem exists_checkNext_error {seen : List String} {es : List TypeEntry} {err : ManifestError}
    (h : s.checkEntries seen es = .error err) :
    ∃ before e behind, es = before ++ e :: behind ∧ s.checkEntries seen before = .ok () ∧
      s.checkNext (seen ++ before.map (·.name)) e = .error err := by
  induction es generalizing seen with
  | nil => cases h
  | cons e es ih =>
    rw [checkEntries_cons] at h
    rcases Outcome.bind_eq_error_iff.mp h with hnext | ⟨⟨⟩, hnext, hrest⟩
    · exact ⟨[], e, es, rfl, rfl, by simpa using hnext⟩
    · obtain ⟨before, e', behind, rfl, hpass, hfail⟩ := ih hrest
      refine ⟨e :: before, e', behind, rfl, ?_, ?_⟩
      · rw [checkEntries_cons, hnext, Outcome.ok_bind, hpass]
      · rwa [List.append_assoc] at hfail

end Scope

/-! ### Labels -/

namespace Manifest

/-- **What a clash is**: two entries of one name, the later of which is the
first whose name was there before. -/
theorem exists_clash {source file file' name : String} {first second : Span}
    (h : parse source file = .error (.duplicateType file' name first second)) :
    Identifier.IsIdentifier name ∧
      (∃ others, Location.findAll source name = first :: second :: others) ∧
      ∃ m i j, ofText source = .ok m ∧ i < j ∧ (m.types.map (·.name))[i]? = some name ∧
        (m.types.map (·.name))[j]? = some name ∧ ((m.types.map (·.name)).take j).Nodup := by
  rcases Outcome.bind_eq_error_iff.mp h with hread | ⟨m, hread, hvalid⟩
  · cases hdocument : ofText source with
    | ok m =>
      rw [hdocument] at hread
      cases hread
    | error e =>
      rw [hdocument] at hread
      cases e <;> cases hread
  · have hm : ofText source = .ok m := Outcome.mapError_eq_ok_iff.mp hread
    rcases Outcome.bind_eq_error_iff.mp hvalid with hcheck | ⟨⟨⟩, -, hdone⟩
    · rw [validate] at hcheck
      split at hcheck
      · cases hcheck
      · obtain ⟨before, e, behind, htypes, hpass, hfail⟩ := Scope.exists_checkNext_error hcheck
        obtain ⟨hname, rfl, hseen, hfound⟩ := Scope.checkNext_eq_duplicate hfail
        rw [List.nil_append] at hseen
        obtain ⟨i, hi⟩ := List.mem_iff_getElem?.mp hseen
        have hlt : i < (before.map (·.name)).length := (List.getElem?_eq_some_iff.mp hi).1
        have hnames :
            m.types.map (·.name) = before.map (·.name) ++ e.name :: behind.map (·.name) := by
          rw [htypes, List.map_append, List.map_cons]
        refine ⟨hname, hfound, m, i, (before.map (·.name)).length, hm, hlt, ?_, ?_, ?_⟩
        · rw [hnames, List.getElem?_append_left hlt, hi]
        · rw [hnames, List.getElem?_append_right (Nat.le_refl _), Nat.sub_self]
          rfl
        · rw [hnames, List.take_left']
          · exact (Scope.checkEntries_ok_iff.mp hpass).2.1
          · rfl
    · cases hdone

/-- **When the labels are on the names that clash.** Where a manifest is
rejected because two entries share a name, there are two that give themselves
this name, the second of them the first whose name was there before. The labels
cover the two values exactly when the text assigns the name at each of them, at
the first before the second, and nowhere else in front of the second: in no
member, no type around an entry, no snippet and no comment. -/
theorem duplicate_labels_cover_iff {source file file' name : String} {first second : Span}
    (h : parse source file = .error (.duplicateType file' name first second)) :
    ∃ names i j value value', writtenNames? source = some names ∧ i < j ∧
      names[i]? = some ⟨value, name⟩ ∧ names[j]? = some ⟨value', name⟩ ∧
      ((names.take j).map (·.value)).Nodup ∧
      (first.Covers value ∧ second.Covers value' ↔
        Location.Assigns source name value ∧ Location.Assigns source name value' ∧
          value.start < value'.start ∧
          ∀ v, Location.Assigns source name v → v = value ∨ value'.start ≤ v.start) := by
  obtain ⟨hname, ⟨others, hfound⟩, m, i, j, hm, hij, hi, hj, hnodup⟩ := exists_clash h
  obtain ⟨names, hnames, hvalues⟩ := writtenNames?_of_ofText hm
  have hwritten : ∀ {k : Nat}, (m.types.map (·.name))[k]? = some name →
      ∃ value, names[k]? = some ⟨value, name⟩ := by
    intro k hk
    rw [← hvalues, List.getElem?_map, Option.map_eq_some_iff] at hk
    obtain ⟨⟨value, written⟩, hget, rfl⟩ := hk
    exact ⟨value, hget⟩
  obtain ⟨value, hvalue⟩ := hwritten hi
  obtain ⟨value', hvalue'⟩ := hwritten hj
  refine ⟨names, i, j, value, value', hnames, hij, hvalue, hvalue', ?_,
    Location.first_two_cover_iff hname hfound value value'⟩
  rwa [List.map_take, hvalues]

/-- A comment that assigns the name behind both entries does no harm. -/
theorem duplicate_labels_cover_iff_behind :
    let source :=
      "[[types]]\nname = \"Status\"\n[[types]]\nname = \"Status\"\n# name = \"Status\"\n"
    let first : Span := ⟨18, 24⟩
    let second : Span := ⟨44, 50⟩
    parse source "csgen.toml" = .error (.duplicateType "csgen.toml" "Status" first second) ∧
    ∃ value value', writtenNames? source = some [⟨value, "Status"⟩, ⟨value', "Status"⟩] ∧
      first.Covers value ∧ second.Covers value' ∧
      ∀ v, Location.Assigns source "Status" v → v = value ∨ value'.start ≤ v.start := by
  intro source first second
  have hrejected : parse source "csgen.toml" =
      .error (.duplicateType "csgen.toml" "Status" first second) := by
    decide +kernel
  have hwritten : writtenNames? source = some [⟨⟨17, 25⟩, "Status"⟩, ⟨⟨43, 51⟩, "Status"⟩] := by
    decide +kernel
  obtain ⟨names, i, j, value, value', hnames, hij, hi, hj, -, hcover⟩ :=
    duplicate_labels_cover_iff hrejected
  obtain rfl := Option.some.inj (hwritten.symm.trans hnames)
  have hj₁ : j < 2 := (List.getElem?_eq_some_iff.mp hj).1
  obtain ⟨rfl, rfl⟩ : i = 0 ∧ j = 1 := by omega
  cases hi
  cases hj
  have hcovers : first.Covers ⟨17, 25⟩ ∧ second.Covers ⟨43, 51⟩ := by decide
  exact ⟨hrejected, _, _, hwritten, hcovers.1, hcovers.2, (hcover.mp hcovers).2.2.2⟩

/-- **A label on a comment**: it assigns the name between the two entries. -/
theorem duplicate_labels_miss :
    let source :=
      "[[types]]\nname = \"Status\"\n# name = \"Status\"\n[[types]]\nname = \"Status\"\n"
    parse source "csgen.toml" = .error (.duplicateType "csgen.toml" "Status" ⟨18, 24⟩ ⟨36, 42⟩) ∧
    writtenNames? source = some [⟨⟨17, 25⟩, "Status"⟩, ⟨⟨61, 69⟩, "Status"⟩] ∧
    ¬Span.Covers ⟨36, 42⟩ ⟨61, 69⟩ := by
  decide +kernel

end Manifest

end SharpSource
