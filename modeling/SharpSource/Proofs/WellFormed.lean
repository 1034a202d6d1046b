import Mathlib.Data.List.Nodup
import SharpSource.Manifest.Validation
import SharpSource.Proofs.Outcome
import SharpSource.Proofs.Splitting

/-!
# Which manifests pass

The checks of a manifest run through nested lists and stop at the first problem.
What they accept can be said without them: `Manifest.WellFormed` asks for names,
kinds and accessibilities that can be written, entry by entry, and for entries
that are told apart by their names. Each check has a lemma that says what it
accepts, from the characters of a name (`Identifier.fault?_eq_none_iff`) to a
whole list of entries (`Scope.checkEntries_ok_iff`), and a manifest passes
exactly when it is well-formed and its indentation fits in a text
(`Manifest.validate_ok_iff`).

A manifest that does not pass fails with the error of its shortest prefix of
entries that does not pass either (`Scope.checkEntries_take`): no check looks at
the entries behind.
-/

namespace SharpSource

/-! ### Characters of names -/

theorem Text.inRanges_eq_any_toList (table : Array (Nat × Nat)) (n : Nat) :
    inRanges table n = table.toList.any fun r => r.1 ≤ n && n ≤ r.2 := by
  rw [inRanges, Array.any_toList]

namespace Identifier

/-- The code points of the blanks. -/
def blankPoints : List Nat :=
  [0x20, 0x9, 0xa, 0xb, 0xc, 0xd, 0x85, 0xa0, 0x1680, 0x2000, 0x2001, 0x2002, 0x2003, 0x2004,
    0x2005, 0x2006, 0x2007, 0x2008, 0x2009, 0x200a, 0x2028, 0x2029, 0x202f, 0x205f, 0x3000]

theorem toNat_mem_blankPoints {c : Char} (h : Text.isBlank c = true) : c.toNat ∈ blankPoints := by
  simp only [Text.isBlank, Bool.or_eq_true, Bool.and_eq_true, beq_iff_eq, decide_eq_true_eq] at h
  simp only [blankPoints, List.mem_cons, List.not_mem_nil, or_false]
  omega

/-- **No blank is part of a name**: none of the ranges of letters and numerals
has one. -/
theorem isContinue_eq_false_of_isBlank {c : Char} (h : Text.isBlank c = true) :
    isContinue c = false := by
  have hall : ∀ n ∈ blankPoints, isContinue (Char.ofNat n) = false := by
    -- As lists the tables can be gone through by evaluation.
    simp only [isContinue, Text.isLetterOrNumeral, Text.isLetter, Text.isNumeral,
      Text.inRanges_eq_any_toList]
    decide +kernel
  rw [← Char.ofNat_toNat c]
  exact hall _ (toNat_mem_blankPoints h)

/-- **An identifier** starts with a letter or an underscore and goes on with
letters, numerals and underscores. -/
def IsIdentifier (name : String) : Prop :=
  ∃ c cs, name.toList = c :: cs ∧ (Text.isLetter c = true ∨ c = '_') ∧
    ∀ d ∈ cs, Text.isLetterOrNumeral d = true ∨ d = '_'

/-- **A name** is an identifier and no reserved keyword. -/
def IsName (name : String) : Prop :=
  name ∉ keywords ∧ IsIdentifier name

theorem isContinue_iff {c : Char} :
    isContinue c = true ↔ Text.isLetterOrNumeral c = true ∨ c = '_' := by
  rw [isContinue, Bool.or_eq_true, beq_iff_eq]

/-- **An identifier has no fault**, and nothing else is without one. -/
theorem fault?_eq_none_iff {name : String} : fault? name = none ↔ IsIdentifier name := by
  rw [fault?, IsIdentifier]
  cases hname : name.toList with
  | nil => simp
  | cons c cs =>
    have hstart : isStart c = true ↔ Text.isLetter c = true ∨ c = '_' := by
      rw [isStart, Bool.or_eq_true, beq_iff_eq]
    have hrest : cs.all isContinue = true ↔
        ∀ d ∈ cs, Text.isLetterOrNumeral d = true ∨ d = '_' := by
      simp only [List.all_eq_true, isContinue_iff]
    have hfault : (if !isStart c then some Fault.start
        else if cs.all isContinue then none else some Fault.character) = none ↔
          isStart c = true ∧ cs.all isContinue = true := by
      cases isStart c <;> cases cs.all isContinue <;> simp
    change (if !isStart c then some Fault.start
        else if cs.all isContinue then none else some Fault.character) = none ↔ _
    rw [hfault, hstart, hrest]
    constructor
    · intro h
      exact ⟨c, cs, rfl, h⟩
    · rintro ⟨_, _, ⟨rfl, rfl⟩, h⟩
      exact h

/-- A character that may start a name may also stand further back. -/
theorem IsIdentifier.isContinue {name : String} (h : IsIdentifier name) :
    ∀ c ∈ name.toList, isContinue c = true := by
  obtain ⟨c, cs, hname, hc, hcs⟩ := h
  rw [hname, List.forall_mem_cons]
  exact ⟨isContinue_iff.mpr (hc.imp_left Text.isLetterOrNumeral_of_isLetter),
    fun d hd => isContinue_iff.mpr (hcs d hd)⟩

/-- An identifier has a character that is not blank. -/
theorem IsIdentifier.not_blank {name : String} (h : IsIdentifier name) :
    ∃ c ∈ name.toList, Text.isBlank c = false := by
  have hcontinue := h.isContinue
  obtain ⟨c, cs, hname, -⟩ := h
  have hc : c ∈ name.toList := by simp [hname]
  refine ⟨c, hc, ?_⟩
  rw [← Bool.not_eq_true]
  intro hblank
  have hnot := isContinue_eq_false_of_isBlank hblank
  rw [hcontinue c hc] at hnot
  cases hnot

end Identifier

open Identifier (IsIdentifier IsName)

/-- A namespace with names for its parts is not blank. -/
theorem Text.not_blank_of_split {ns : String} (h : ∀ part ∈ split '.' ns, IsName part) :
    isBlankText ns = false := by
  obtain ⟨w, ws, hpieces⟩ := List.exists_cons_of_ne_nil (pieces_ne_nil (· == '.') ns.toList)
  have hw : w ∈ pieces (· == '.') ns.toList := by simp [hpieces]
  obtain ⟨c, hc, hsolid⟩ := (h _ (List.mem_map_of_mem hw)).2.not_blank
  rw [String.toList_ofList] at hc
  rw [isBlankText, List.all_eq_false]
  exact ⟨c, mem_of_mem_pieces hw hc, by simp [hsolid]⟩

/-! ### Well-formed manifests -/

/-- A kind that types can be declared with, as records if they are to be. -/
def TypeKind.IsDeclarable (k : TypeKind) (record : Bool) : Prop :=
  (k = .classType ∨ k = .structType ∨ k = .interfaceType ∨ k = .enumType) ∧
    (record = true → k = .classType ∨ k = .structType)

/-- An accessibility that can be declared. -/
def Accessibility.IsDeclarable (a : Accessibility) : Prop :=
  a ≠ .notApplicable ∧ a ≠ .protectedOrInternal

/-- A type around an entry that is in order. -/
structure ContainingEntry.WellFormed (e : ContainingEntry) : Prop where
  name : IsName e.name
  kind : e.typeKind.IsDeclarable e.isRecord
  access : e.access.IsDeclarable

/-- A member that is in order; it may be called like a keyword. -/
structure MemberEntry.WellFormed (m : MemberEntry) : Prop where
  name : IsIdentifier m.name
  type : Text.isBlankText m.type = false
  access : m.access.IsDeclarable
  getter : ∀ a, m.getter = some a → a.IsDeclarable
  setter : ∀ a, m.setter = some a → a.IsDeclarable

/-- **An entry that is in order.** -/
structure TypeEntry.WellFormed (e : TypeEntry) : Prop where
  name : IsName e.name
  ns : ∀ ns, e.ns = some ns → ∀ part ∈ Text.split '.' ns, IsName part
  kind : e.typeKind.IsDeclarable e.isRecord
  access : e.access.IsDeclarable
  generics : ∀ g ∈ e.generics, IsName g
  containing : ∀ c ∈ e.containing, c.WellFormed
  members : ∀ m ∈ e.members, m.WellFormed

/-- **A well-formed manifest**: its indentation has a width, its entries have
different names, and each of them is in order. -/
structure Manifest.WellFormed (m : Manifest) : Prop where
  width : m.options.indent.width ≠ some 0
  names : (m.types.map (·.name)).Nodup
  entries : ∀ e ∈ m.types, e.WellFormed

/-- The width of an indentation **fits** when a text can have that many
characters. -/
def IndentConfig.Fits (c : IndentConfig) : Prop :=
  ∀ width, c.width = some width → width ≤ Indent.maxBytes

/-- The manifest with its first `n` entries only. -/
def Manifest.upTo (m : Manifest) (n : Nat) : Manifest :=
  { m with types := m.types.take n }

/-! ### What the checks accept -/

/-- A blank character makes an indentation when there is some of it and a text
has room for it. -/
theorem Indent.make_ok_iff {char : Char} (h : Text.isBlank char = true) {width : Nat} :
    (∃ indent, make char width = .ok indent) ↔
      width ≠ 0 ∧ (String.ofList (List.replicate width char)).utf8ByteSize ≤ maxBytes := by
  rw [make, dif_pos h, utf8ByteSize_replicate]
  by_cases hzero : 0 < width
  · rw [dif_pos hzero]
    by_cases hmost : width * char.utf8Size ≤ maxBytes
    · rw [dif_pos hmost]
      exact iff_of_true ⟨_, rfl⟩ ⟨hzero.ne', hmost⟩
    · rw [dif_neg hmost]
      exact iff_of_false (fun ⟨_, h⟩ => nomatch h) fun h => hmost h.2
  · rw [dif_neg hzero]
    exact iff_of_false (fun ⟨_, h⟩ => nomatch h) fun h => h.1 (Nat.eq_zero_of_not_pos hzero)

/-- A character of one byte makes an indentation when the width that is set is
not zero and fits: its text has as many bytes as characters. -/
theorem IndentConfig.make_ok_iff {c : IndentConfig} {char : Char} {default : Nat}
    (hblank : Text.isBlank char = true) (hsize : char.utf8Size = 1) (hpos : default ≠ 0)
    (hmost : default ≤ Indent.maxBytes) :
    (∃ indent, Indent.make char (c.width.getD default) = .ok indent) ↔
      c.width ≠ some 0 ∧ c.Fits := by
  rw [Indent.make_ok_iff hblank, Indent.utf8ByteSize_replicate, hsize, Nat.mul_one, Fits]
  cases c.width <;> simp [hpos, hmost]

/-- An indentation is made when its width is not zero and fits. -/
theorem IndentConfig.indent_ok_iff {c : IndentConfig} :
    (∃ indent, c.indent = .ok indent) ↔ c.width ≠ some 0 ∧ c.Fits := by
  rw [indent]
  cases c.style with
  | spaces => exact make_ok_iff (by decide) (by decide) (by decide) (by decide)
  | tab => exact make_ok_iff (by decide) (by decide) (by decide) (by decide)

namespace Scope

variable {s : Scope}

theorem checkIdentifier_ok_iff {name sort : String} :
    s.checkIdentifier name sort = .ok () ↔ IsIdentifier name := by
  rw [checkIdentifier, ← Identifier.fault?_eq_none_iff]
  cases Identifier.fault? name <;> simp

theorem checkName_ok_iff {name sort : String} :
    s.checkName name sort = .ok () ↔ IsName name := by
  have hkeyword : Identifier.isKeyword name = true ↔ name ∈ Identifier.keywords :=
    List.contains_iff_mem
  rw [checkName, IsName, ← hkeyword]
  split
  · rename_i h
    exact iff_of_false (fun hcheck => nomatch hcheck) fun hname => hname.1 h
  · rename_i h
    rw [checkIdentifier_ok_iff, and_iff_right h]

/-- A blank namespace is no name, so the parts of a namespace decide alone. -/
theorem checkNamespace_ok_iff {ns : String} :
    s.checkNamespace ns = .ok () ↔ ∀ part ∈ Text.split '.' ns, IsName part := by
  rw [checkNamespace]
  split
  · rename_i hblank
    refine iff_of_false (fun h => nomatch h) fun hparts => ?_
    rw [Text.not_blank_of_split hparts] at hblank
    cases hblank
  · rw [Outcome.forM_eq_ok_iff]
    exact forall₂_congr fun part _ => checkName_ok_iff

theorem checkKind_ok_iff {k : TypeKind} {record : Bool} :
    s.checkKind k record = .ok () ↔ k.IsDeclarable record := by
  rw [checkKind, TypeKind.IsDeclarable]
  cases k <;> cases record <;> simp [TypeKind.keyword?, fail]

theorem checkAccessibility_ok_iff {a : Accessibility} :
    s.checkAccessibility a = .ok () ↔ a.IsDeclarable := by
  rw [checkAccessibility, Accessibility.IsDeclarable]
  cases a <;> simp [Accessibility.keyword?, fail]

theorem checkContaining_ok_iff {e : ContainingEntry} :
    s.checkContaining e = .ok () ↔ e.WellFormed := by
  rw [checkContaining, Outcome.check_bind_ok_iff, Outcome.check_bind_ok_iff, checkName_ok_iff,
    checkKind_ok_iff, checkAccessibility_ok_iff]
  exact ⟨fun ⟨name, kind, access⟩ => ⟨name, kind, access⟩, fun h => ⟨h.name, h.kind, h.access⟩⟩

theorem checkMember_ok_iff {m : MemberEntry} : s.checkMember m = .ok () ↔ m.WellFormed := by
  have haccesses : m.accesses.forM s.checkAccessibility = .ok () ↔ m.access.IsDeclarable ∧
      (∀ a, m.getter = some a → a.IsDeclarable) ∧ ∀ a, m.setter = some a → a.IsDeclarable := by
    rw [Outcome.forM_eq_ok_iff, MemberEntry.accesses, List.forall_mem_cons, List.forall_mem_append]
    simp only [checkAccessibility_ok_iff, Option.mem_toList]
  have htype : (if Text.isBlankText m.type then
        s.fail (.emptyType (s.contextOf "member") m.name) (s.find? m.name)
      else m.accesses.forM s.checkAccessibility) = .ok () ↔
        Text.isBlankText m.type = false ∧ m.accesses.forM s.checkAccessibility = .ok () := by
    cases Text.isBlankText m.type <;> simp [fail]
  rw [checkMember, Outcome.check_bind_ok_iff, htype, haccesses, checkMemberName,
    checkIdentifier_ok_iff]
  exact ⟨fun ⟨name, type, access, getter, setter⟩ => ⟨name, type, access, getter, setter⟩,
    fun h => ⟨h.name, h.type, h.access, h.getter, h.setter⟩⟩

/-- The name of an entry is checked before the scope inside of it is entered. -/
theorem checkEntry_ok_iff {e : TypeEntry} :
    IsName e.name ∧ s.checkEntry e = .ok () ↔ e.WellFormed := by
  have hns : e.ns.forM s.checkNamespace = .ok () ↔
      ∀ ns, e.ns = some ns → ∀ part ∈ Text.split '.' ns, IsName part := by
    cases e.ns with
    | none => exact iff_of_true rfl fun ns h => nomatch h
    | some ns =>
      change s.checkNamespace ns = .ok () ↔ _
      rw [checkNamespace_ok_iff]
      exact ⟨fun h ns' hns => Option.some.inj hns ▸ h, fun h => h ns rfl⟩
  rw [checkEntry]
  simp only [Outcome.check_bind_ok_iff, Outcome.forM_eq_ok_iff, hns, checkKind_ok_iff,
    checkAccessibility_ok_iff, checkName_ok_iff, checkContaining_ok_iff, checkMember_ok_iff]
  constructor
  · rintro ⟨name, ns, kind, access, generics, containing, members⟩
    exact ⟨name, ns, kind, access, generics, containing, members⟩
  · intro h
    exact ⟨h.name, h.ns, h.kind, h.access, h.generics, h.containing, h.members⟩

/-! ### A list of entries -/

/-- What is checked of the next entry: that its name is new, and the entry
itself. -/
def checkNext (s : Scope) (seen : List String) (e : TypeEntry) : Check := do
  s.checkName e.name "type"
  if e.name ∈ seen then .error (s.duplicateError e.name)
  else (s.push e.name).checkEntry e

theorem checkEntries_cons {seen : List String} {e : TypeEntry} {es : List TypeEntry} :
    s.checkEntries seen (e :: es) =
      s.checkNext seen e >>= fun _ => s.checkEntries (seen ++ [e.name]) es := by
  rw [checkEntries, checkNext]
  cases s.checkName e.name "type" with
  | error err => rfl
  | ok u =>
    simp only [Outcome.ok_bind]
    split <;> rfl

theorem checkNext_ok_iff {seen : List String} {e : TypeEntry} :
    s.checkNext seen e = .ok () ↔ e.WellFormed ∧ e.name ∉ seen := by
  rw [checkNext, Outcome.check_bind_ok_iff, checkName_ok_iff,
    ← checkEntry_ok_iff (s := s.push e.name)]
  by_cases hseen : e.name ∈ seen <;> simp [hseen]

/-- **Entries pass** when each is in order and has a name that no other one has,
and that was not seen before. -/
theorem checkEntries_ok_iff {seen : List String} {es : List TypeEntry} :
    s.checkEntries seen es = .ok () ↔
      (∀ e ∈ es, e.WellFormed) ∧ (es.map (·.name)).Nodup ∧ ∀ e ∈ es, e.name ∉ seen := by
  induction es generalizing seen with
  | nil => simp [checkEntries]
  | cons e es ih =>
    have hfresh : (∀ e' ∈ es, e'.name ∉ seen ++ [e.name]) ↔
        e.name ∉ es.map (·.name) ∧ ∀ e' ∈ es, e'.name ∉ seen := by
      simp only [List.mem_append, List.mem_singleton, not_or, forall_and, List.mem_map, not_exists,
        not_and]
      exact and_comm
    rw [checkEntries_cons, Outcome.check_bind_ok_iff, checkNext_ok_iff, ih, hfresh,
      List.forall_mem_cons, List.forall_mem_cons, List.map_cons, List.nodup_cons]
    tauto

/-- **Entries that do not pass** have a shortest prefix that does not pass, and
what comes behind it does not count. -/
theorem checkEntries_take {seen : List String} {es : List TypeEntry} {err : ManifestError}
    (h : s.checkEntries seen es = .error err) :
    ∃ n ≤ es.length, (∀ k < n, s.checkEntries seen (es.take k) = .ok ()) ∧
      ∀ k ≥ n, s.checkEntries seen (es.take k) = .error err := by
  induction es generalizing seen with
  | nil => cases h
  | cons e es ih =>
    rw [checkEntries_cons] at h
    rcases Outcome.bind_eq_error_iff.mp h with hnext | ⟨⟨⟩, hnext, hrest⟩
    · -- The first entry fails already, whatever is taken behind it.
      refine ⟨1, by simp, fun k hk => ?_, fun k hk => ?_⟩
      · rw [Nat.lt_one_iff.mp hk]
        rfl
      · obtain ⟨k, rfl⟩ := Nat.exists_eq_add_of_le' hk
        rw [List.take_succ_cons, checkEntries_cons, hnext]
        rfl
    · obtain ⟨n, hn, hpass, hfail⟩ := ih hrest
      refine ⟨n + 1, by simpa using hn, fun k hk => ?_, fun k hk => ?_⟩
      · cases k with
        | zero => rfl
        | succ k =>
          rw [List.take_succ_cons, checkEntries_cons, hnext, Outcome.ok_bind]
          exact hpass k (Nat.lt_of_succ_lt_succ hk)
      · obtain ⟨k, rfl⟩ :=
          Nat.exists_eq_add_of_le' (Nat.le_trans (Nat.succ_le_succ (Nat.zero_le n)) hk)
        rw [List.take_succ_cons, checkEntries_cons, hnext, Outcome.ok_bind]
        exact hfail k (Nat.le_of_succ_le_succ hk)

end Scope

/-! ### Manifests -/

namespace Manifest

variable {m : Manifest} {source file : String}

/-- **A manifest passes** exactly when it is well-formed and its indentation
fits. -/
theorem validate_ok_iff :
    m.validate source file = .ok () ↔ m.WellFormed ∧ m.options.indent.Fits := by
  have hindent := IndentConfig.indent_ok_iff (c := m.options.indent)
  rw [validate]
  cases hmade : m.options.indent.indent with
  | error failure =>
    rw [hmade] at hindent
    refine iff_of_false (fun h => nomatch h) fun ⟨hm, hfits⟩ => ?_
    obtain ⟨indent, h⟩ := hindent.mpr ⟨hm.width, hfits⟩
    cases h
  | ok indent =>
    obtain ⟨hwidth, hfits⟩ := hindent.mp ⟨indent, hmade⟩
    change Scope.checkEntries _ [] m.types = .ok () ↔ _
    rw [Scope.checkEntries_ok_iff]
    constructor
    · rintro ⟨hentries, hnames, -⟩
      exact ⟨⟨hwidth, hnames, hentries⟩, hfits⟩
    · rintro ⟨hm, -⟩
      exact ⟨hm.entries, hm.names, fun e _ => List.not_mem_nil⟩

/-- **Which manifests pass, and which error the others have.** A manifest passes
exactly when it is well-formed and the width of its indentation fits. When it
does not pass, it has a shortest prefix of entries that does not pass; every
prefix from there on has the same error, whatever its other entries are. -/
theorem validate_exact (m : Manifest) (source file : String) :
    (m.validate source file = .ok () ↔ m.WellFormed ∧ m.options.indent.Fits) ∧
      ∀ err, m.validate source file = .error err → ∃ n ≤ m.types.length,
        (∀ k < n, (m.upTo k).validate source file = .ok ()) ∧
        ∀ k ≥ n, (m.upTo k).validate source file = .error err := by
  refine ⟨validate_ok_iff, fun err h => ?_⟩
  rw [validate] at h
  split at h
  · rename_i failure hindent
    refine ⟨0, Nat.zero_le _, fun k hk => absurd hk (Nat.not_lt_zero k), fun k _ => ?_⟩
    rw [validate, upTo, hindent]
    exact h
  · rename_i indent hindent
    obtain ⟨n, hn, hpass, hfail⟩ := Scope.checkEntries_take h
    refine ⟨n, hn, fun k hk => ?_, fun k hk => ?_⟩
    · rw [validate, upTo, hindent]
      exact hpass k hk
    · rw [validate, upTo, hindent]
      exact hfail k hk

/-- A width that no text can have is not zero, and all the same it does not
pass. -/
theorem validate_width_too_long :
    let m : Manifest := { options := { indent := { width := some (Indent.maxBytes + 1) } } }
    m.WellFormed ∧
      m.validate "[options.indent]\nwidth = 9223372036854775808\n" "x.toml" =
        .error (.problem "x.toml" (.indent .indentTooLong) none) := by
  intro m
  refine ⟨⟨by decide, by decide, by simp [m]⟩, by decide +kernel⟩

end Manifest

end SharpSource
