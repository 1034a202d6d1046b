import Mathlib.Data.List.Basic
import SharpSource.Text.Basic

/-!
# Where a pattern occurs

Looking for a pattern in a text goes from left to right, takes the first
occurrence and goes on behind it. What is found first is the first occurrence
there is (`Text.exists_breakAt?`). What is found in all are occurrences
(`Text.occursIn_of_mem_offsetsFrom`) that do not overlap
(`Text.apart_offsetsFrom`), and an occurrence is passed over only when it
overlaps one that was found (`Text.exists_mem_offsetsFrom`).

Whether all of them are found then depends on the pattern alone: where two
occurrences overlap, some part of the pattern is both its beginning and its end.
A **borderless** pattern has no such part, and all its occurrences are found
(`Text.mem_offsetsOf_iff`), in ascending order (`Text.pairwise_offsetsOf`).
-/

namespace SharpSource.Text

/-! ### Lengths in bytes -/

theorem byteLength_append (cs cs' : List Char) :
    byteLength (cs ++ cs') = byteLength cs + byteLength cs' := by
  induction cs with
  | nil => exact (Nat.zero_add _).symm
  | cons c cs ih => rw [List.cons_append, byteLength, byteLength, ih, Nat.add_assoc]

theorem byteLength_pos {cs : List Char} (h : cs ≠ []) : 0 < byteLength cs := by
  cases cs with
  | nil => exact absurd rfl h
  | cons c cs => exact Nat.add_pos_left c.utf8Size_pos _

theorem utf8ByteSize_ofList (cs : List Char) : (String.ofList cs).utf8ByteSize = byteLength cs := by
  induction cs with
  | nil => rfl
  | cons c cs ih =>
    rw [← List.singleton_append, String.ofList_append, String.utf8ByteSize_append, ih,
      ← String.singleton_eq_ofList, String.utf8ByteSize_singleton]
    rfl

theorem utf8ByteSize_eq (s : String) : s.utf8ByteSize = byteLength s.toList := by
  rw [← utf8ByteSize_ofList, String.ofList_toList]

/-- Of two starts of a text, the one that takes fewer bytes starts the other. -/
theorem prefix_of_byteLength_le {cs before before' : List Char} (h : before <+: cs)
    (h' : before' <+: cs) (hle : byteLength before ≤ byteLength before') : before <+: before' := by
  rcases List.prefix_or_prefix_of_prefix h h' with hprefix | ⟨rest, rfl⟩
  · exact hprefix
  · rw [byteLength_append] at hle
    by_cases hrest : rest = []
    · simp [hrest]
    · have hpos := byteLength_pos hrest
      omega

/-! ### The first occurrence -/

/-- **A pattern occurs** in some characters behind a number of bytes. -/
def OccursIn (pattern cs : List Char) (offset : Nat) : Prop :=
  ∃ before after, cs = before ++ (pattern ++ after) ∧ byteLength before = offset

variable {pattern cs : List Char}

/-- **The first occurrence is found**: no other one has less in front of it. -/
theorem exists_breakAt? (hne : pattern ≠ []) (before after : List Char) :
    ∃ b a, breakAt? pattern (before ++ (pattern ++ after)) = some (b, a) ∧ b <+: before := by
  induction before with
  | nil =>
    obtain ⟨p, ps, rfl⟩ := List.exists_cons_of_ne_nil hne
    refine ⟨[], after, ?_, List.nil_prefix⟩
    rw [List.nil_append, List.cons_append, breakAt?, ← List.cons_append, afterStart?_append]
  | cons c before ih =>
    obtain ⟨b, a, hbreak, hprefix⟩ := ih
    rw [List.cons_append, breakAt?, hbreak]
    cases afterStart? pattern (c :: (before ++ (pattern ++ after))) with
    | some rest => exact ⟨[], rest, rfl, List.nil_prefix⟩
    | none => exact ⟨c :: b, a, rfl, List.cons_prefix_cons.mpr ⟨rfl, hprefix⟩⟩

theorem occursIn_of_offsetOf? {pattern s : String} {o : Nat} (h : offsetOf? pattern s = some o) :
    OccursIn pattern.toList s.toList o := by
  obtain ⟨⟨before, after⟩, hbreak, rfl⟩ := Option.map_eq_some_iff.mp h
  exact ⟨before, after, eq_append_of_breakAt? hbreak, rfl⟩

theorem exists_offsetOf?_le {pattern s : String} {o : Nat} (hne : pattern ≠ "")
    (h : OccursIn pattern.toList s.toList o) :
    ∃ first, offsetOf? pattern s = some first ∧ first ≤ o := by
  have hpattern : pattern.toList ≠ [] := by simpa using hne
  obtain ⟨before, after, hs, rfl⟩ := h
  obtain ⟨b, a, hbreak, rest, rfl⟩ := exists_breakAt? hpattern before after
  refine ⟨byteLength b, by rw [offsetOf?, hs, hbreak]; rfl, ?_⟩
  rw [byteLength_append]
  exact Nat.le_add_right ..

/-! ### All occurrences -/

/-- **A borderless pattern** has no part but itself that it both starts and ends
with. -/
def Borderless (pattern : List Char) : Prop :=
  ∀ w, w ≠ [] → w <+: pattern → w <:+ pattern → w = pattern

/-- An occurrence of a borderless pattern that begins behind another begins
behind all of it. -/
theorem Borderless.apart (h : Borderless pattern) {between after after' : List Char}
    (hne : between ≠ []) (heq : pattern ++ after = between ++ (pattern ++ after')) :
    pattern <+: between := by
  rcases List.append_eq_append_iff.mp heq with ⟨rest, rfl, -⟩ | ⟨w, hpattern, hrest⟩
  · exact List.prefix_append ..
  · -- What both have in common is an end of the one and a start of the other.
    have hcommon : w <+: pattern := by
      refine List.prefix_of_prefix_length_le ⟨after, hrest.symm⟩ ⟨after', rfl⟩ ?_
      rw [hpattern, List.length_append]
      exact Nat.le_add_left ..
    by_cases hw : w = []
    · simp [hpattern, hw]
    · have hwhole : w = pattern := h w hw hcommon ⟨between, hpattern.symm⟩
      have hlength := congrArg List.length hpattern
      rw [hwhole, List.length_append] at hlength
      exact absurd (List.eq_nil_of_length_eq_zero (by omega)) hne

/-- **What is found occurs.** -/
theorem occursIn_of_mem_offsetsFrom {fuel base o : Nat} (h : o ∈ offsetsFrom pattern fuel base cs) :
    ∃ k, OccursIn pattern cs k ∧ o = base + k := by
  induction fuel generalizing cs base with
  | zero => exact absurd h List.not_mem_nil
  | succ fuel ih =>
    rw [offsetsFrom] at h
    cases hbreak : breakAt? pattern cs with
    | none =>
      rw [hbreak] at h
      exact absurd h List.not_mem_nil
    | some r =>
      obtain ⟨b, a⟩ := r
      have hcs := eq_append_of_breakAt? hbreak
      rw [hbreak] at h
      rcases List.mem_cons.mp h with rfl | hrest
      · exact ⟨_, ⟨b, a, hcs, rfl⟩, rfl⟩
      · obtain ⟨-, ⟨before, after, rfl, rfl⟩, rfl⟩ := ih hrest
        refine ⟨_, ⟨b ++ (pattern ++ before), after, by simpa using hcs, rfl⟩, ?_⟩
        rw [byteLength_append, byteLength_append]
        omega

/-- **An occurrence is found or overlaps one** that is found and begins in front
of it. -/
theorem exists_mem_offsetsFrom (hne : pattern ≠ []) (base : Nat) {fuel k : Nat}
    (hfuel : cs.length < fuel) (h : OccursIn pattern cs k) :
    ∃ o ∈ offsetsFrom pattern fuel base cs, o ≤ base + k ∧ base + k < o + byteLength pattern := by
  induction fuel generalizing cs base k with
  | zero => exact absurd hfuel (Nat.not_lt_zero _)
  | succ fuel ih =>
    obtain ⟨before, after, hocc, rfl⟩ := h
    obtain ⟨b, a, hbreak, between, rfl⟩ := exists_breakAt? hne before after
    rw [← hocc] at hbreak
    rw [offsetsFrom, hbreak]
    have hcs := eq_append_of_breakAt? hbreak
    rcases Nat.lt_or_ge (byteLength between) (byteLength pattern) with hlt | hge
    · refine ⟨_, List.mem_cons_self .., ?_⟩
      rw [byteLength_append]
      omega
    · -- What is found ends before the occurrence begins, so the rest of the search meets it.
      have hshared : pattern ++ a = between ++ (pattern ++ after) := by
        rwa [hcs, List.append_assoc, List.append_cancel_left_eq] at hocc
      obtain ⟨rest, rfl⟩ : pattern <+: between :=
        prefix_of_byteLength_le ⟨a, hshared⟩ (List.prefix_append ..) hge
      have ha : a = rest ++ (pattern ++ after) := by simpa using hshared
      have hlength : a.length < fuel := by
        have hpos := List.length_pos_of_ne_nil hne
        rw [hcs, List.length_append, List.length_append] at hfuel
        omega
      obtain ⟨o, ho, hle, hlt⟩ :=
        ih (base + byteLength b + byteLength pattern) hlength ⟨rest, after, ha, rfl⟩
      refine ⟨o, List.mem_cons_of_mem _ ho, ?_⟩
      rw [byteLength_append, byteLength_append]
      omega

/-- **What is found does not overlap**, and none of it begins before the
search. -/
theorem apart_offsetsFrom (pattern : List Char) (fuel base : Nat) (cs : List Char) :
    (offsetsFrom pattern fuel base cs).Pairwise (fun o o' => o + byteLength pattern ≤ o') ∧
      ∀ o ∈ offsetsFrom pattern fuel base cs, base ≤ o := by
  induction fuel generalizing base cs with
  | zero => exact ⟨.nil, fun o ho => absurd ho List.not_mem_nil⟩
  | succ fuel ih =>
    rw [offsetsFrom]
    cases breakAt? pattern cs with
    | none => exact ⟨.nil, fun o ho => absurd ho List.not_mem_nil⟩
    | some r =>
      obtain ⟨hapart, hle⟩ := ih (base + byteLength r.1 + byteLength pattern) r.2
      refine ⟨List.pairwise_cons.mpr ⟨hle, hapart⟩, List.forall_mem_cons.mpr
        ⟨Nat.le_add_right .., fun o ho => ?_⟩⟩
      have hbehind := hle o ho
      omega

/-- Two occurrences of a borderless pattern do not overlap. -/
theorem Borderless.eq_of_overlap (h : Borderless pattern) {o k : Nat} (ho : OccursIn pattern cs o)
    (hk : OccursIn pattern cs k) (hle : o ≤ k) (hlt : k < o + byteLength pattern) : k = o := by
  obtain ⟨before, after, hocc, rfl⟩ := ho
  obtain ⟨before', after', hocc', rfl⟩ := hk
  obtain ⟨between, rfl⟩ : before <+: before' :=
    prefix_of_byteLength_le ⟨_, hocc.symm⟩ ⟨_, hocc'.symm⟩ hle
  by_cases hbetween : between = []
  · rw [hbetween, List.append_nil]
  · rw [hocc, List.append_assoc, List.append_cancel_left_eq] at hocc'
    obtain ⟨rest, rfl⟩ := h.apart hbetween hocc'
    rw [byteLength_append, byteLength_append] at hlt
    omega

/-- **All occurrences of a borderless pattern are found.** -/
theorem mem_offsetsOf_iff {pattern s : String} (hne : pattern ≠ "") (h : Borderless pattern.toList)
    {o : Nat} : o ∈ offsetsOf pattern s ↔ OccursIn pattern.toList s.toList o := by
  constructor
  · intro ho
    obtain ⟨k, hk, rfl⟩ := occursIn_of_mem_offsetsFrom ho
    rwa [Nat.zero_add]
  · intro ho
    obtain ⟨o', ho', hle, hlt⟩ :=
      exists_mem_offsetsFrom (by simpa using hne) 0 (Nat.lt_succ_self _) ho
    rw [Nat.zero_add] at hle hlt
    obtain ⟨k, hk, rfl⟩ := occursIn_of_mem_offsetsFrom ho'
    rw [Nat.zero_add] at hle hlt ho'
    rwa [h.eq_of_overlap hk ho hle hlt]

/-- **Occurrences are found in ascending order.** -/
theorem pairwise_offsetsOf {pattern : String} (hne : pattern ≠ "") (s : String) :
    (offsetsOf pattern s).Pairwise (· < ·) := by
  have hpos : 0 < byteLength pattern.toList := byteLength_pos (by simpa using hne)
  refine (apart_offsetsFrom _ _ _ _).1.imp fun hle => ?_
  omega

/-- An occurrence inside of another one is passed over. -/
example : offsetsOf "aba" "ababa aba" = [0, 6] := by decide

end SharpSource.Text
