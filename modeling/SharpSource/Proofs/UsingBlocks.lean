import Mathlib.Data.List.Nodup
import SharpSource.Proofs.Directives

/-!
# The form of a block of directives

A directive that is written out starts with its keyword and ends in a semicolon
(`Using.IsDirective`), and writing it out again changes nothing. A block has
each of the directives once. It is sorted by length with a sort that keeps the
order of equal ones, which is to say by one strict order: the longer directive
first, and of two that are as long the one that appears first
(`Using.Precedes`). The block is then the only list of the directives in that
order (`Using.block_eq_ok_iff`).

A bare name can be given in four spellings, with or without the keyword and the
semicolon, and all of them stand for one directive
(`Using.normalize_of_spells`). That takes a name: without one the keyword alone
is read as the name (`Using.block_of_empty_name`).
-/

namespace SharpSource

/-! ### Sorting and first places -/

/-- **What a stable sort keeps.** A list in an order `R` that is sorted by
another one is in the other, and where the other does not decide, in the order
`R` still. -/
theorem pairwise_mergeSort_stable {α : Type} {R : α → α → Prop} {le : α → α → Bool}
    (htrans : ∀ a b c, le a b = true → le b c = true → le a c = true)
    (htotal : ∀ a b, (le a b || le b a) = true) {l : List α} (h : l.Pairwise R) :
    (l.mergeSort le).Pairwise fun a b => le a b = true ∧ (le b a = true → R a b) := by
  induction l with
  | nil => simp
  | cons a l ih =>
    obtain ⟨before, behind, hcons, hrest, hbefore⟩ := List.mergeSort_cons htrans htotal a l
    have hsorted := List.pairwise_mergeSort htrans htotal (a :: l)
    have hfirst : ∀ b ∈ before ++ behind, R a b := fun b hb =>
      List.rel_of_pairwise_cons h (List.mem_mergeSort.mp (hrest ▸ hb))
    have hstable := ih h.of_cons
    rw [hrest, List.pairwise_append] at hstable
    rw [hcons, List.pairwise_append, List.pairwise_cons] at hsorted ⊢
    obtain ⟨-, ⟨habehind, -⟩, hcross⟩ := hsorted
    refine ⟨hstable.1, ⟨fun b hb => ⟨habehind b hb, fun _ => ?_⟩, hstable.2.1⟩, ?_⟩
    · exact hfirst b (List.mem_append_right _ hb)
    · intro b hb c hc
      rcases List.mem_cons.mp hc with rfl | hc
      · -- What has gone in front of `a` is strictly before it in the order of the sort.
        refine ⟨hcross b hb _ List.mem_cons_self, fun hle => ?_⟩
        have hnot := hbefore b hb
        rw [hle] at hnot
        cases hnot
      · exact hstable.2.2 b hb c hc

namespace Text

/-- The texts without repetition stand in the order of their first places. -/
theorem pairwise_distinct (l : List String) :
    (distinct l).Pairwise fun a b => l.idxOf a < l.idxOf b := by
  induction l with
  | nil => exact .nil
  | cons s l ih =>
    have hplace : ∀ b ∈ (distinct l).filter (· != s), (s :: l).idxOf b = l.idxOf b + 1 := by
      intro b hb
      have hne : s ≠ b := fun h => by simp [h] at hb
      exact List.idxOf_cons_ne l hne
    rw [distinct, List.pairwise_cons]
    constructor
    · intro b hb
      rw [hplace b hb, List.idxOf_cons_self]
      exact Nat.succ_pos _
    · refine (ih.filter _).imp_of_mem fun {a b} ha hb hab => ?_
      rw [hplace a ha, hplace b hb]
      exact Nat.succ_lt_succ hab

/-- A list without repetition stays as it is. -/
theorem distinct_eq_self {l : List String} (h : l.Nodup) : distinct l = l := by
  induction l with
  | nil => rfl
  | cons s l ih =>
    rw [List.nodup_cons] at h
    have hkeep : l.filter (· != s) = l :=
      List.filter_eq_self.mpr fun t ht => bne_iff_ne.mpr fun hts => h.1 (hts ▸ ht)
    rw [distinct, ih h.2, hkeep]

end Text

namespace Using

/-! ### Directives written out -/

theorem hasKeyword_iff {s : String} :
    hasKeyword s = true ↔ "using ".toList <+: s.toList ∨ "global using ".toList <+: s.toList := by
  rw [hasKeyword, Bool.or_eq_true, Text.startsWith_iff, Text.startsWith_iff]

/-- **A directive that is written out** starts with its keyword and ends in a
semicolon. -/
structure IsDirective (d : String) : Prop where
  keyword : "using ".toList <+: d.toList ∨ "global using ".toList <+: d.toList
  semicolon : d.toList.getLast? = some ';'

theorem getLast?_semicolon (s : String) : (s ++ ";").toList.getLast? = some ';' := by
  rw [String.toList_append]
  exact List.getLast?_concat

/-- A text with a keyword is a directive once a semicolon ends it. -/
theorem isDirective_ended {s : String} (h : hasKeyword s = true) :
    IsDirective (if s.toList.getLast? = some ';' then s else s ++ ";") := by
  rw [hasKeyword_iff] at h
  split
  · rename_i hlast
    exact ⟨h, hlast⟩
  · have hlonger : s.toList <+: (s ++ ";").toList := by
      rw [String.toList_append]
      exact List.prefix_append _ _
    exact ⟨h.imp (·.trans hlonger) (·.trans hlonger), getLast?_semicolon s⟩

theorem hasKeyword_using_append (s : String) : hasKeyword ("using " ++ s) = true := by
  rw [hasKeyword_iff, String.toList_append]
  exact Or.inl (List.prefix_append _ _)

/-- **What is written out** is a directive. -/
theorem isDirective_of_normalize {input d : String} (h : normalize input = .ok d) :
    IsDirective d := by
  rw [normalize] at h
  by_cases hempty : Text.trim input = ""
  · rw [if_pos hempty] at h
    cases h
  · rw [if_neg hempty] at h
    obtain rfl := Except.ok.inj h
    refine isDirective_ended ?_
    split
    · assumption
    · exact hasKeyword_using_append _

/-- No keyword starts with a blank. -/
theorem isBlank_head?_of_hasKeyword {s : String} (h : hasKeyword s = true) :
    ∀ c ∈ s.toList.head?, Text.isBlank c = false := by
  intro c hc
  rcases hasKeyword_iff.mp h with ⟨rest, hrest⟩ | ⟨rest, hrest⟩
  · rw [← hrest] at hc
    obtain rfl : 'u' = c := by simpa using hc
    decide
  · rw [← hrest] at hc
    obtain rfl : 'g' = c := by simpa using hc
    decide

theorem isBlank_getLast?_of_semicolon {s : String} (h : s.toList.getLast? = some ';') :
    ∀ c ∈ s.toList.getLast?, Text.isBlank c = false := by
  intro c hc
  rw [h] at hc
  obtain rfl : ';' = c := by simpa using hc
  decide

theorem IsDirective.trim {d : String} (h : IsDirective d) : Text.trim d = d :=
  Text.trim_eq_self_of_ends (isBlank_head?_of_hasKeyword (hasKeyword_iff.mpr h.keyword))
    (isBlank_getLast?_of_semicolon h.semicolon)

/-- What is written out for a text that is trimmed. -/
theorem normalize_of_trim {s : String} (htrim : Text.trim s = s) (hne : s ≠ "") :
    normalize s =
      let t := if hasKeyword s then s else "using " ++ s
      .ok (if t.toList.getLast? = some ';' then t else t ++ ";") := by
  rw [normalize, htrim, if_neg hne]

/-- **A directive stays as it is** when it is written out. -/
theorem normalize_of_isDirective {d : String} (h : IsDirective d) : normalize d = .ok d := by
  have hne : d ≠ "" := by
    rintro rfl
    exact absurd h.semicolon (by decide)
  rw [normalize_of_trim h.trim hne, hasKeyword_iff.mpr h.keyword]
  exact congrArg Except.ok (if_pos h.semicolon)

/-! ### The order of a block -/

/-- **The order of a block** of directives that appear in some list: a longer
one comes before a shorter one, and of two that are as long the one that appears
first. -/
def Precedes (ds : List String) (a b : String) : Prop :=
  b.utf8ByteSize < a.utf8ByteSize ∨
    a.utf8ByteSize = b.utf8ByteSize ∧ ds.idxOf a < ds.idxOf b

instance (ds : List String) (a b : String) : Decidable (Precedes ds a b) :=
  inferInstanceAs (Decidable (_ ∨ _))

variable {ds : List String} {a b : String}

theorem Precedes.asymm (h : Precedes ds a b) : ¬Precedes ds b a := by
  unfold Precedes at *
  omega

theorem Precedes.ne (h : Precedes ds a b) : a ≠ b := by
  rintro rfl
  exact h.asymm h

/-- Of two different directives one comes first. -/
theorem precedes_or_precedes (ha : a ∈ ds) (hab : a ≠ b) : Precedes ds a b ∨ Precedes ds b a := by
  have hplace : ds.idxOf a ≠ ds.idxOf b := fun h => hab ((List.idxOf_inj ha).mp h)
  unfold Precedes
  omega

theorem notShorter_trans (a b c : String) (hab : notShorter a b = true)
    (hbc : notShorter b c = true) : notShorter a c = true := by
  rw [notShorter, decide_eq_true_eq] at *
  exact hbc.trans hab

theorem notShorter_total (a b : String) : (notShorter a b || notShorter b a) = true := by
  simp only [notShorter, Bool.or_eq_true, decide_eq_true_eq]
  exact Nat.le_total _ _

/-- **A sorted list of distinct directives** is in the order of a block. -/
theorem pairwise_sorted (ds : List String) :
    ((Text.distinct ds).mergeSort notShorter).Pairwise (Precedes ds) := by
  refine (pairwise_mergeSort_stable notShorter_trans notShorter_total
    (Text.pairwise_distinct ds)).imp fun {a b} ⟨hle, hplace⟩ => ?_
  rw [notShorter, decide_eq_true_eq] at hle hplace
  rcases hle.lt_or_eq with hlt | heq
  · exact Or.inl hlt
  · exact Or.inr ⟨heq.symm, hplace heq.ge⟩

theorem nodup_sorted (ds : List String) :
    ((Text.distinct ds).mergeSort notShorter).Nodup :=
  (List.mergeSort_perm _ _).nodup_iff.mpr (Text.nodup_distinct ds)

theorem mem_sorted {d : String} :
    d ∈ (Text.distinct ds).mergeSort notShorter ↔ d ∈ ds := by
  rw [List.mem_mergeSort, Text.mem_distinct]

theorem block_eq_ok {inputs out : List String} (h : block inputs = .ok out) :
    ∃ ds, inputs.mapM normalize = .ok ds ∧ out = (Text.distinct ds).mergeSort notShorter := by
  obtain ⟨ds, hds, hout⟩ := Outcome.bind_eq_ok_iff.mp h
  exact ⟨ds, hds, (Except.ok.inj hout).symm⟩

/-- **The one block** of some directives: the list of all of them that is in the
order of a block. -/
theorem eq_sorted {out : List String} (hmem : ∀ d, d ∈ out ↔ d ∈ ds)
    (horder : out.Pairwise (Precedes ds)) : out = (Text.distinct ds).mergeSort notShorter := by
  have hnodup : out.Nodup := horder.imp Precedes.ne
  have hperm : out.Perm ((Text.distinct ds).mergeSort notShorter) :=
    (List.perm_ext_iff_of_nodup hnodup (nodup_sorted ds)).mpr fun d =>
      (hmem d).trans mem_sorted.symm
  exact hperm.eq_of_pairwise (fun a b _ _ hab hba => absurd hba hab.asymm) horder
    (pairwise_sorted ds)

/-- A list of the directives, all of them and in the order of a block, is their
block. -/
theorem block_of_order {inputs out : List String} (hds : inputs.mapM normalize = .ok ds)
    (hsub : out ⊆ ds) (hsup : ds ⊆ out) (horder : out.Pairwise (Precedes ds)) :
    block inputs = .ok out := by
  rw [eq_sorted (fun d => ⟨fun hd => hsub hd, fun hd => hsup hd⟩) horder]
  exact Outcome.bind_eq_ok_iff.mpr ⟨ds, hds, rfl⟩

/-- **A block is determined by its directives**: it is the list of those that
are written out for the inputs, all of them, in the order of a block. -/
theorem block_eq_ok_iff {inputs out : List String} :
    block inputs = .ok out ↔
      ∃ ds, List.Forall₂ (fun s d => normalize s = .ok d) inputs ds ∧
        (∀ d, d ∈ out ↔ d ∈ ds) ∧ out.Pairwise (Precedes ds) := by
  constructor
  · intro h
    obtain ⟨ds, hds, rfl⟩ := block_eq_ok h
    exact ⟨ds, Outcome.mapM_eq_ok_iff.mp hds, fun d => mem_sorted, pairwise_sorted ds⟩
  · rintro ⟨ds, hds, hmem, horder⟩
    exact block_of_order (Outcome.mapM_eq_ok_iff.mpr hds) (fun d => (hmem d).mp)
      (fun d => (hmem d).mpr) horder

theorem isDirective_of_block {inputs out : List String} (h : block inputs = .ok out) :
    ∀ d ∈ out, IsDirective d := by
  intro d hd
  obtain ⟨ds, hds, rfl⟩ := block_eq_ok h
  obtain ⟨s, -, hs⟩ := Outcome.exists_of_mem_results hds (mem_sorted.mp hd)
  exact isDirective_of_normalize hs

/-- **A block of a block** is the block. -/
theorem block_block {inputs out : List String} (h : block inputs = .ok out) :
    block out = .ok out := by
  have hself : out.mapM normalize = .ok out := Outcome.mapM_eq_ok_iff.mpr <|
    List.forall₂_same.mpr fun d hd => normalize_of_isDirective (isDirective_of_block h d hd)
  obtain ⟨ds, -, rfl⟩ := block_eq_ok h
  have hsorted := List.pairwise_mergeSort notShorter_trans notShorter_total (Text.distinct ds)
  refine Outcome.bind_eq_ok_iff.mpr ⟨_, hself, ?_⟩
  rw [Text.distinct_eq_self (nodup_sorted ds), List.mergeSort_of_pairwise hsorted]
  rfl

/-! ### Spellings of a name -/

/-- **A bare name**: it is trimmed, and has neither a keyword in front nor a
semicolon behind. -/
structure IsBare (n : String) : Prop where
  trimmed : Text.trim n = n
  keyword : hasKeyword n = false
  semicolon : n.toList.getLast? ≠ some ';'

/-- The spellings of the directive for a name. -/
def spellings (n : String) : List String :=
  [n, n ++ ";", "using " ++ n, "using " ++ n ++ ";"]

/-- **A text spells a name** when it is one of the spellings, with blanks around
it. -/
def Spells (n s : String) : Prop :=
  ∃ before spelling after, Text.isBlankText before = true ∧ Text.isBlankText after = true ∧
    spelling ∈ spellings n ∧ s = before ++ spelling ++ after

section Spellings

variable {n s : String}

/-- No keyword ends in a semicolon, so that one behind the name brings none
about. -/
theorem IsBare.hasKeyword_semicolon (h : IsBare n) : hasKeyword (n ++ ";") = false := by
  have hstart : ∀ word : List Char, word.getLast? ≠ some ';' → word <+: (n ++ ";").toList →
      word <+: n.toList := by
    intro word hword hpre
    rw [String.toList_append] at hpre
    rcases List.prefix_concat_iff.mp hpre with rfl | hpre
    · exact absurd List.getLast?_concat hword
    · exact hpre
  rw [← Bool.not_eq_true]
  intro hboth
  have hkeyword : hasKeyword n = true := hasKeyword_iff.mpr <|
    (hasKeyword_iff.mp hboth).imp (hstart _ (by decide)) (hstart _ (by decide))
  rw [h.keyword] at hkeyword
  cases hkeyword

/-- **Each spelling of a name** stands for the directive that names it. -/
theorem IsBare.normalize_spelling (h : IsBare n) (hne : n ≠ "") (hs : s ∈ spellings n) :
    normalize s = .ok ("using " ++ n ++ ";") := by
  obtain ⟨hhead, hlast⟩ := Text.ends_of_trim_eq_self h.trimmed
  have hchars : n.toList ≠ [] := fun hnil => hne (String.toList_eq_nil_iff.mp hnil)
  have hend : ("using " ++ n).toList.getLast? = n.toList.getLast? := by
    rw [String.toList_append, List.getLast?_append_of_ne_nil _ hchars]
  simp only [spellings, List.mem_cons, List.not_mem_nil, or_false] at hs
  rcases hs with rfl | rfl | rfl | rfl
  · rw [normalize_of_trim h.trimmed hne, h.keyword]
    exact congrArg Except.ok (if_neg (hend ▸ h.semicolon))
  · have htrim : Text.trim (n ++ ";") = n ++ ";" := by
      refine Text.trim_eq_self_of_ends ?_ (isBlank_getLast?_of_semicolon (getLast?_semicolon n))
      rwa [String.toList_append, List.head?_append_of_ne_nil _ hchars]
    rw [normalize_of_trim htrim (by simp), h.hasKeyword_semicolon, String.append_assoc]
    refine congrArg Except.ok (if_pos ?_)
    rw [← getLast?_semicolon ("using " ++ n), String.append_assoc]
    rfl
  · have htrim : Text.trim ("using " ++ n) = "using " ++ n :=
      Text.trim_eq_self_of_ends (isBlank_head?_of_hasKeyword (hasKeyword_using_append n))
        (by rwa [hend])
    rw [normalize_of_trim htrim (by simp), hasKeyword_using_append]
    exact congrArg Except.ok (if_neg (hend ▸ h.semicolon))
  · refine normalize_of_isDirective ⟨Or.inl ?_, getLast?_semicolon _⟩
    rw [String.append_assoc, String.toList_append]
    exact List.prefix_append _ _

/-- **Every text that spells a name** stands for the directive that names it. -/
theorem IsBare.normalize_of_spells (h : IsBare n) (hne : n ≠ "") (hs : Spells n s) :
    normalize s = .ok ("using " ++ n ++ ";") := by
  obtain ⟨before, spelling, after, hbefore, hafter, hspelling, rfl⟩ := hs
  rw [normalize, Text.trim_between hbefore hafter, ← normalize]
  exact h.normalize_spelling hne hspelling

/-- Spellings of one name are one directive. -/
theorem IsBare.block_of_spells (h : IsBare n) (hne : n ≠ "") {inputs : List String}
    (hinputs : inputs ≠ []) (hs : ∀ s ∈ inputs, Spells n s) :
    block inputs = .ok ["using " ++ n ++ ";"] := by
  rw [block_eq_ok_iff]
  refine ⟨inputs.map fun _ => "using " ++ n ++ ";", ?_, fun d => ?_, List.pairwise_singleton _ _⟩
  · rw [List.forall₂_map_right_iff]
    exact List.forall₂_same.mpr fun s hmem => h.normalize_of_spells hne (hs s hmem)
  · obtain ⟨s, hmem⟩ := List.exists_mem_of_ne_nil inputs hinputs
    rw [List.mem_singleton, List.mem_map]
    constructor
    · rintro rfl
      exact ⟨s, hmem, rfl⟩
    · rintro ⟨-, -, rfl⟩
      rfl

end Spellings

/-! ### The whole of it -/

theorem block_error_iff {inputs : List String} :
    block inputs = .error .blankUsing ↔ ∃ s ∈ inputs, Text.trim s = "" := by
  have hok : (∃ out, block inputs = .ok out) ↔ ∀ s ∈ inputs, Text.trim s ≠ "" := by
    rw [block_ok_iff]
    simp only [ne_eq, Text.trim_eq_empty_iff, Bool.not_eq_true]
  constructor
  · intro h
    by_contra hblank
    obtain ⟨out, hout⟩ := hok.mpr fun s hs hempty => hblank ⟨s, hs, hempty⟩
    rw [h] at hout
    cases hout
  · rintro ⟨s, hs, hempty⟩
    cases hblock : block inputs with
    | error e => rw [block_error hblock]
    | ok out => exact absurd hempty (hok.mp ⟨out, hblock⟩ s hs)

/-- **A block of directives is canonical.** It cannot be made exactly when some
input is blank. Otherwise it has the directives that are written out for the
inputs, all of them and each once; they are in the order of their lengths, the
longer ones first, and those of one length in the order in which they appear.
Each of them starts with a keyword and ends in a semicolon. The block of a block
is the block again, as a directive that is written out is written out as it is;
and the spellings of a name that is not empty, with or without the keyword and
the semicolon and with blanks around them, all stand for one directive. -/
theorem block_canonical :
    (∀ inputs : List String,
      (block inputs = .error .blankUsing ↔ ∃ s ∈ inputs, Text.trim s = "") ∧
      ((∀ s ∈ inputs, Text.trim s ≠ "") →
        ∃ out ds, block inputs = .ok out ∧
          List.Forall₂ (fun s d => normalize s = .ok d) inputs ds ∧
          out.Nodup ∧ (∀ d, d ∈ out ↔ d ∈ ds) ∧ out.Pairwise (Precedes ds) ∧
          (∀ d ∈ out, IsDirective d) ∧ block out = .ok out)) ∧
    (∀ s d : String, normalize s = .ok d → normalize d = .ok d) ∧
    ∀ n : String, IsBare n → n ≠ "" →
      (∀ s, Spells n s → normalize s = .ok ("using " ++ n ++ ";")) ∧
      ∀ inputs : List String, inputs ≠ [] → (∀ s ∈ inputs, Spells n s) →
        block inputs = .ok ["using " ++ n ++ ";"] := by
  refine ⟨fun inputs => ⟨block_error_iff, fun hinputs => ?_⟩, fun s d h => ?_, fun n hn hne => ?_⟩
  · have hblank : ∀ s ∈ inputs, Text.isBlankText s = false := fun s hs => by
      rw [← Bool.not_eq_true, ← Text.trim_eq_empty_iff]
      exact hinputs s hs
    obtain ⟨out, hout⟩ := block_ok_iff.mpr hblank
    obtain ⟨ds, hds, hmem, horder⟩ := block_eq_ok_iff.mp hout
    exact ⟨out, ds, hout, hds, horder.imp Precedes.ne, hmem, horder, isDirective_of_block hout,
      block_block hout⟩
  · exact normalize_of_isDirective (isDirective_of_normalize h)
  · exact ⟨fun s hs => hn.normalize_of_spells hne hs,
      fun inputs hinputs hs => hn.block_of_spells hne hinputs hs⟩

/-- Five inputs for three directives, two of which are as long as each other. -/
theorem block_canonical_five :
    let inputs := ["Zeta", " using Beta; ", "global using Alpha", "Beta", "using Zeta;\t"]
    (∃ out, block inputs = .ok out ∧ block out = .ok out ∧
      out = ["global using Alpha;", "using Zeta;", "using Beta;"]) ∧
    block ["Beta", " using Beta; "] = .ok ["using Beta;"] := by
  intro inputs
  obtain ⟨hblock, -, hspell⟩ := block_canonical
  constructor
  · obtain ⟨out, ds, hout, -, -, -, -, -, hagain⟩ := (hblock inputs).2 (by decide +kernel)
    have hdirectives : inputs.mapM normalize = .ok
        ["using Zeta;", "using Beta;", "global using Alpha;", "using Beta;", "using Zeta;"] := by
      decide +kernel
    have hvalue : block inputs = .ok ["global using Alpha;", "using Zeta;", "using Beta;"] :=
      block_of_order hdirectives (by decide) (by decide) (by decide +kernel)
    exact ⟨out, hout, hagain, Except.ok.inj (hout.symm.trans hvalue)⟩
  · have hbare : IsBare "Beta" := ⟨by decide +kernel, by decide +kernel, by decide +kernel⟩
    refine (hspell "Beta" hbare (by decide)).2 _ (List.cons_ne_nil _ _) ?_
    rw [List.forall_mem_cons, List.forall_mem_singleton]
    exact ⟨⟨"", "Beta", "", by decide, by decide, by decide, by decide⟩,
      ⟨" ", "using Beta;", " ", by decide, by decide, by decide, by decide⟩⟩

/-- **Without a name the spellings differ**: the keyword alone, which has lost
its blank, is taken for the name. -/
theorem block_of_empty_name :
    let inputs := ["using ;", "using ", ";"]
    IsBare "" ∧ (∀ s ∈ inputs, Spells "" s) ∧
      block inputs = .ok ["using using;", "using ;"] ∧ ¬∃ d, block inputs = .ok [d] := by
  intro inputs
  have hbare : IsBare "" := ⟨by decide +kernel, by decide +kernel, by decide +kernel⟩
  have hspells : ∀ s ∈ inputs, Spells "" s := by
    have hplain : ∀ s ∈ spellings "", Spells "" s := fun s hs =>
      ⟨"", s, "", rfl, rfl, hs, by simp⟩
    exact fun s hs => hplain s ((by decide : inputs ⊆ spellings "") hs)
  have hdirectives : inputs.mapM normalize = .ok ["using ;", "using using;", "using ;"] := by
    decide +kernel
  have hvalue : block inputs = .ok ["using using;", "using ;"] :=
    block_of_order hdirectives (by decide) (by decide) (by decide +kernel)
  refine ⟨hbare, hspells, hvalue, ?_⟩
  rintro ⟨d, hd⟩
  rw [hvalue] at hd
  cases hd

end Using

end SharpSource
