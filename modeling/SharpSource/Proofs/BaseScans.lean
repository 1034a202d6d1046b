import Mathlib.Data.List.Infix
import SharpSource.Declaration.BaseList
import SharpSource.Proofs.Blanks

/-!
# The scans of a base list

A base list is found by two scans that count brackets: one for the colon that it
starts with, and one for the commas between its entries. Both can be stopped
behind any text and taken up again, as long as the depth of brackets is kept,
and for the colon also whether the text ends in one.

Two things are said of each scan: how it goes over a text that is written as
declarations are, and how it goes on behind a text of which no more is known
than what the scan of it came to. For the colon this is
`BaseList.splitColon_append` with `BaseList.splitColon_append_of_eq_some`, and
for the commas `BaseList.entries_append` with `BaseList.exists_last_entry`:
whatever the text, what follows it belongs to its last entry up to the next
comma.
-/

namespace SharpSource

namespace BaseList

/-! ### Depths -/

/-- What a character adds to the depth of brackets. -/
def weight (c : Char) : Int :=
  if c = '<' ∨ c = '(' ∨ c = '[' then 1
  else if c = '>' ∨ c = ')' ∨ c = ']' then -1
  else 0

/-- **How many brackets are open** behind a text, those that it closes without
having opened them counted against the others. -/
def opened : List Char → Int
  | [] => 0
  | c :: cs => weight c + opened cs

/-- **The brackets of a text match**, in number: none is closed that is
not open, and none is left open. -/
structure Balanced (cs : List Char) : Prop where
  never_negative : ∀ p, p <+: cs → 0 ≤ opened p
  closed : opened cs = 0

/-- The depth behind a text, as it is counted character by character. -/
def depthBehind (depth : Nat) (cs : List Char) : Nat :=
  cs.foldl depthAfter depth

theorem depthAfter_eq {depth : Nat} {c : Char} (h : 0 ≤ depth + weight c) :
    (depthAfter depth c : Int) = depth + weight c := by
  rw [weight] at h ⊢
  rw [depthAfter]
  by_cases hopens : c = '<' ∨ c = '(' ∨ c = '['
  · rw [if_pos hopens, if_pos hopens]
    omega
  by_cases hcloses : c = '>' ∨ c = ')' ∨ c = ']'
  · rw [if_neg hopens, if_pos hcloses] at h ⊢
    rw [if_neg hopens, if_pos hcloses]
    omega
  · rw [if_neg hopens, if_neg hcloses, if_neg hopens, if_neg hcloses, Int.add_zero]

/-- As long as no bracket is closed that is not open, the depth counts the open
ones. -/
theorem depthBehind_eq {depth : Nat} {cs : List Char}
    (h : ∀ p, p <+: cs → 0 ≤ depth + opened p) :
    (depthBehind depth cs : Int) = depth + opened cs := by
  induction cs generalizing depth with
  | nil => simp [depthBehind, opened]
  | cons c cs ih =>
    have hfirst : 0 ≤ depth + weight c := by
      have hone := h [c] ⟨cs, rfl⟩
      rwa [opened, opened, Int.add_zero] at hone
    have hrest : ∀ p, p <+: cs → 0 ≤ (depthAfter depth c : Int) + opened p := fun p hp => by
      have hboth := h (c :: p) (List.cons_prefix_cons.mpr ⟨rfl, hp⟩)
      rw [opened] at hboth
      rw [depthAfter_eq hfirst]
      omega
    show (depthBehind (depthAfter depth c) cs : Int) = depth + (weight c + opened cs)
    rw [ih hrest, depthAfter_eq hfirst]
    omega

theorem depthBehind_append (depth : Nat) (cs cs' : List Char) :
    depthBehind depth (cs ++ cs') = depthBehind (depthBehind depth cs) cs' :=
  List.foldl_append

theorem opened_append (cs cs' : List Char) : opened (cs ++ cs') = opened cs + opened cs' := by
  induction cs with
  | nil => simp [opened]
  | cons c cs ih =>
    rw [List.cons_append, opened, opened, ih]
    omega

namespace Balanced

variable {cs cs' : List Char}

/-- The depth inside of a balanced text. -/
theorem depthBehind_prefix_eq (h : Balanced cs) (depth : Nat) {p : List Char} (hp : p <+: cs) :
    (BaseList.depthBehind depth p : Int) = depth + opened p :=
  depthBehind_eq fun q hq => by
    have hopened := h.never_negative q (hq.trans hp)
    omega

/-- Inside of a balanced text no bracket is closed that was open in front of
it. -/
theorem le_depthBehind (h : Balanced cs) (depth : Nat) {p : List Char} (hp : p <+: cs) :
    depth ≤ BaseList.depthBehind depth p := by
  have hdepth := h.depthBehind_prefix_eq depth hp
  have hopened := h.never_negative p hp
  omega

/-- Behind a balanced text the depth is as before. -/
theorem depthBehind (h : Balanced cs) (depth : Nat) : BaseList.depthBehind depth cs = depth := by
  have hdepth := h.depthBehind_prefix_eq depth List.prefix_rfl
  rw [h.closed] at hdepth
  omega

/-- Inside of a balanced text a place counts as outside of brackets when none
is open there. -/
theorem depthBehind_eq_zero_iff (h : Balanced cs) {p : List Char} (hp : p <+: cs) :
    BaseList.depthBehind 0 p = 0 ↔ opened p = 0 := by
  have hdepth := h.depthBehind_prefix_eq 0 hp
  omega

theorem nil : Balanced [] where
  never_negative p hp := by
    rw [List.prefix_nil.mp hp]
    exact Int.le_refl 0
  closed := rfl

/-- A character that is no bracket changes nothing. -/
theorem cons {c : Char} (h : Balanced cs) (hc : weight c = 0) : Balanced (c :: cs) where
  never_negative p hp := by
    rcases List.prefix_cons_iff.mp hp with rfl | ⟨q, rfl, hq⟩
    · exact Int.le_refl 0
    · rw [opened, hc, Int.zero_add]
      exact h.never_negative q hq
  closed := by rw [opened, hc, h.closed, Int.zero_add]

theorem append (h : Balanced cs) (h' : Balanced cs') : Balanced (cs ++ cs') where
  never_negative p hp := by
    rcases List.prefix_or_prefix_of_prefix hp (List.prefix_append cs cs') with hshort | ⟨q, rfl⟩
    · exact h.never_negative p hshort
    · rw [opened_append, h.closed, Int.zero_add]
      exact h'.never_negative q ((List.prefix_append_right_inj cs).mp hp)
  closed := by rw [opened_append, h.closed, h'.closed, Int.zero_add]

/-- A balanced text between two brackets. -/
theorem between (h : Balanced cs) {opening closing : Char} (hopening : weight opening = 1)
    (hclosing : weight closing = -1) : Balanced (opening :: (cs ++ [closing])) where
  never_negative p hp := by
    rcases List.prefix_cons_iff.mp hp with rfl | ⟨q, rfl, hq⟩
    · exact Int.le_refl 0
    · rw [opened, hopening]
      rcases List.prefix_concat_iff.mp hq with rfl | hshort
      · rw [opened_append, h.closed, opened, opened, hclosing]
        omega
      · have hinside := h.never_negative q hshort
        omega
  closed := by
    rw [opened, opened_append, h.closed, opened, opened, hopening, hclosing]
    rfl

end Balanced

/-- Brackets are matched by looking at every prefix. -/
theorem balanced_iff {cs : List Char} :
    Balanced cs ↔ opened cs = 0 ∧ ∀ n ≤ cs.length, 0 ≤ opened (cs.take n) := by
  refine ⟨fun h => ⟨h.closed, fun n _ => h.never_negative _ (List.take_prefix n cs)⟩,
    fun ⟨hclosed, hall⟩ => ⟨fun p hp => ?_, hclosed⟩⟩
  have htake := hall p.length hp.length_le
  rwa [← List.prefix_iff_eq_take.mp hp] at htake

instance (cs : List Char) : Decidable (Balanced cs) :=
  decidable_of_iff' _ balanced_iff

/-- The places of a character in a text, as parts of the text or by number. -/
theorem forall_split_iff {cs : List Char} {c : Char} {P : List Char → List Char → Prop} :
    (∀ a b, cs = a ++ c :: b → P a b) ↔
      ∀ n < cs.length, cs[n]? = some c → P (cs.take n) (cs.drop (n + 1)) := by
  constructor
  · intro h n hn hc
    refine h _ _ ?_
    have hdrop : cs.drop n = c :: cs.drop (n + 1) := by
      rw [List.drop_eq_getElem_cons hn, (List.getElem?_eq_some_iff.mp hc).2]
    rw [← hdrop, List.take_append_drop]
  · rintro h a b rfl
    simpa using h a.length (by simp) (by simp)

/-- Blanks are no brackets. -/
theorem depthBehind_of_blanks {blanks : List Char} (h : ∀ c ∈ blanks, Text.isBlank c = true)
    (depth : Nat) : depthBehind depth blanks = depth := by
  induction blanks with
  | nil => rfl
  | cons c blanks ih =>
    rw [List.forall_mem_cons] at h
    have hopens : ¬(c = '<' ∨ c = '(' ∨ c = '[') := by
      rintro (rfl | rfl | rfl) <;> exact absurd h.1 (by decide)
    have hcloses : ¬(c = '>' ∨ c = ')' ∨ c = ']') := by
      rintro (rfl | rfl | rfl) <;> exact absurd h.1 (by decide)
    rw [depthBehind, List.foldl_cons, depthAfter, if_neg hopens, if_neg hcloses]
    exact ih h.2

theorem depthBehind_trimChars (depth : Nat) (cs : List Char) :
    depthBehind depth (Text.trimChars cs) = depthBehind depth cs := by
  obtain ⟨blanks, hblanks, hback⟩ := Text.exists_blanks (cs.dropWhile Text.isBlank)
  have hfront : ∀ c ∈ cs.takeWhile Text.isBlank, Text.isBlank c = true :=
    fun c hc => List.mem_takeWhile_imp hc
  calc depthBehind depth (Text.trimChars cs)
      = depthBehind depth (Text.trimChars cs ++ blanks) := by
        rw [depthBehind_append, depthBehind_of_blanks hblanks]
    _ = depthBehind depth (cs.dropWhile Text.isBlank) := by
        rw [hback]
        rfl
    _ = depthBehind depth (cs.takeWhile Text.isBlank ++ cs.dropWhile Text.isBlank) := by
        rw [depthBehind_append, depthBehind_of_blanks hfront]
    _ = depthBehind depth cs := by rw [List.takeWhile_append_dropWhile]

/-! ### The colon in front of the list -/

/-- Whether a text ends in a colon, or, when it is empty, whether what is before
it does. -/
def endsInColon (before : Bool) (cs : List Char) : Bool :=
  cs.foldl (fun _ c => c == ':') before

theorem endsInColon_iff {cs : List Char} :
    endsInColon false cs = true ↔ cs.getLast? = some ':' := by
  rcases cs.eq_nil_or_concat with rfl | ⟨init, c, rfl⟩
  · simp [endsInColon]
  · simp [endsInColon]

/-- **The scan goes past a text** in which every colon outside of brackets has a
colon next to it. What it has counted and what it has seen last goes into the
rest. -/
theorem splitColon_append {depth : Nat} {after : Bool} {cs : List Char} (rest : List Char)
    (h : ∀ a b, cs = a ++ ':' :: b → depthBehind depth a = 0 →
      endsInColon after a = true ∨ b.head? = some ':') :
    splitColon depth after (cs ++ rest) =
      (splitColon (depthBehind depth cs) (endsInColon after cs) rest).map fun r =>
        (cs ++ r.1, r.2) := by
  induction cs generalizing depth after with
  | nil => simp [depthBehind, endsInColon]
  | cons c cs ih =>
    have hpast : ¬(c = ':' ∧ depth = 0 ∧ after = false ∧ (cs ++ rest).head? ≠ some ':') := by
      rintro ⟨rfl, rfl, rfl, hnext⟩
      rcases h [] cs rfl rfl with hbefore | hbehind
      · cases hbefore
      · obtain ⟨d, cs, rfl⟩ := List.exists_cons_of_ne_nil (l := cs) (by rintro rfl; cases hbehind)
        exact hnext hbehind
    have hrest : ∀ a b, cs = a ++ ':' :: b → depthBehind (depthAfter depth c) a = 0 →
        endsInColon (c == ':') a = true ∨ b.head? = some ':' := by
      rintro a b rfl hdepth
      exact h (c :: a) b rfl hdepth
    rw [List.cons_append, splitColon, if_neg hpast, ih hrest]
    show ((splitColon (depthBehind (depthAfter depth c) cs) (endsInColon (c == ':') cs) rest).map
      _).map _ = _
    rw [Option.map_map]
    rfl

/-- **A text has no base list** when every colon in it that is outside of
brackets has a colon next to it. -/
theorem splitColon_eq_none_iff {depth : Nat} {after : Bool} {cs : List Char} :
    splitColon depth after cs = none ↔ ∀ a b, cs = a ++ ':' :: b → depthBehind depth a = 0 →
      endsInColon after a = true ∨ b.head? = some ':' := by
  constructor
  · intro h a b hab hdepth
    induction cs generalizing depth after a with
    | nil => simp at hab
    | cons c cs ih =>
      rw [splitColon] at h
      split at h
      · cases h
      · rename_i hpast
        have hrest := Option.map_eq_none_iff.mp h
        cases a with
        | nil =>
          obtain ⟨rfl, rfl⟩ := List.cons.inj hab
          by_contra hneither
          rw [not_or] at hneither
          exact hpast ⟨rfl, hdepth, Bool.eq_false_iff.mpr hneither.1, hneither.2⟩
        | cons d a =>
          obtain ⟨rfl, rfl⟩ := List.cons.inj hab
          exact ih hrest a rfl hdepth
  · intro h
    have hscan := splitColon_append [] h
    rwa [List.append_nil] at hscan

/-- A colon is found outside of brackets, and divides the text. -/
theorem eq_append_of_splitColon {depth : Nat} {after : Bool} {cs a b : List Char}
    (h : splitColon depth after cs = some (a, b)) :
    cs = a ++ ':' :: b ∧ depthBehind depth a = 0 := by
  induction cs generalizing depth after a with
  | nil => cases h
  | cons c cs ih =>
    rw [splitColon] at h
    split at h
    · rename_i hhere
      obtain ⟨rfl, rfl⟩ := Prod.mk.inj (Option.some.inj h)
      exact ⟨by rw [hhere.1, List.nil_append], hhere.2.1⟩
    · obtain ⟨⟨a, b⟩, hbehind, heq⟩ := Option.map_eq_some_iff.mp h
      obtain ⟨rfl, rfl⟩ := Prod.mk.inj heq
      obtain ⟨rfl, hdepth⟩ := ih hbehind
      exact ⟨rfl, hdepth⟩

/-- **The colon that was found** is found again when more follows, unless this
makes a double colon of it. -/
theorem splitColon_append_of_eq_some {depth : Nat} {after : Bool} {cs rest a b : List Char}
    (h : splitColon depth after cs = some (a, b)) (hrest : rest.head? ≠ some ':') :
    splitColon depth after (cs ++ rest) = some (a, b ++ rest) := by
  induction cs generalizing depth after a with
  | nil => cases h
  | cons c cs ih =>
    rw [splitColon] at h
    rw [List.cons_append, splitColon]
    split at h
    · rename_i hhere
      obtain ⟨rfl, rfl⟩ := Prod.mk.inj (Option.some.inj h)
      obtain ⟨hcolon, hdepth, hbefore, hnext⟩ := hhere
      have hsingle : (cs ++ rest).head? ≠ some ':' := by
        rw [List.head?_append]
        cases hcs : cs.head? with
        | none => exact hrest
        | some d => rwa [hcs] at hnext
      rw [if_pos ⟨hcolon, hdepth, hbefore, hsingle⟩]
    · rename_i hpast
      obtain ⟨⟨a, b⟩, hbehind, heq⟩ := Option.map_eq_some_iff.mp h
      obtain ⟨rfl, rfl⟩ := Prod.mk.inj heq
      have hpast' : ¬(c = ':' ∧ depth = 0 ∧ after = false ∧ (cs ++ rest).head? ≠ some ':') := by
        rintro ⟨hcolon, hdepth, hbefore, hnext⟩
        obtain ⟨d, cs, rfl⟩ := List.exists_cons_of_ne_nil (l := cs) (by rintro rfl; cases hbehind)
        exact hpast ⟨hcolon, hdepth, hbefore, hnext⟩
      rw [if_neg hpast', ih hbehind, Option.map_some]

/-- Where a bracket is open, a balanced text brings no colon that counts. -/
theorem Balanced.splitColon_eq_none {cs : List Char} (h : Balanced cs) {depth : Nat}
    (hdepth : 0 < depth) (after : Bool) : splitColon depth after cs = none := by
  rw [splitColon_eq_none_iff]
  rintro a b rfl hzero
  have hle := h.le_depthBehind depth (List.prefix_append a _)
  omega

/-- **A head of a declaration**: its brackets match, and a colon outside of them
is part of a double colon. -/
structure IsHead (cs : List Char) : Prop where
  balanced : Balanced cs
  paired : ∀ a b, cs = a ++ ':' :: b → opened a = 0 → a.getLast? = some ':' ∨ b.head? = some ':'

theorem isHead_iff {cs : List Char} : IsHead cs ↔ Balanced cs ∧ ∀ n < cs.length, cs[n]? = some ':' →
    opened (cs.take n) = 0 →
      (cs.take n).getLast? = some ':' ∨ (cs.drop (n + 1)).head? = some ':' := by
  rw [← forall_split_iff
    (P := fun a b => opened a = 0 → a.getLast? = some ':' ∨ b.head? = some ':')]
  exact ⟨fun h => ⟨h.balanced, h.paired⟩, fun h => ⟨h.1, h.2⟩⟩

instance (cs : List Char) : Decidable (IsHead cs) :=
  decidable_of_iff' _ isHead_iff

theorem IsHead.splitColon_append {cs : List Char} (h : IsHead cs) (rest : List Char) :
    splitColon 0 false (cs ++ rest) =
      (splitColon 0 (endsInColon false cs) rest).map fun r => (cs ++ r.1, r.2) := by
  rw [BaseList.splitColon_append, h.balanced.depthBehind]
  rintro a b rfl hdepth
  rw [h.balanced.depthBehind_eq_zero_iff ⟨_, rfl⟩] at hdepth
  rw [endsInColon_iff]
  exact h.paired a b rfl hdepth

/-- A head by itself has no base list. -/
theorem splitColon_eq_none {head : List Char} (h : IsHead head) :
    splitColon 0 false head = none := by
  have hscan := h.splitColon_append []
  rwa [List.append_nil] at hscan

/-- **The list starts at the colon behind the head**, when that colon does not
stand next to another. -/
theorem splitColon_listed {head list : List Char} (h : IsHead head)
    (hend : head.getLast? ≠ some ':') (hstart : list.head? ≠ some ':') :
    splitColon 0 false (head ++ ':' :: list) = some (head, list) := by
  have hbefore : endsInColon false head = false := by
    rw [Bool.eq_false_iff, Ne, endsInColon_iff]
    exact hend
  rw [h.splitColon_append, hbefore, splitColon, if_pos ⟨rfl, rfl, rfl, hstart⟩]
  simp

/-- **The list that is written behind a text without one** starts at its colon
too, when no bracket is open there, whatever the text ends in. -/
theorem splitColon_begun {head : List Char} (h : splitColon 0 false head = none)
    (hdepth : depthBehind 0 head = 0) (list : List Char) :
    splitColon 0 false (head ++ ' ' :: ':' :: ' ' :: list) = some (head ++ [' '], ' ' :: list) := by
  rw [splitColon_append _ (splitColon_eq_none_iff.mp h), hdepth]
  simp [splitColon, depthAfter]

/-! ### The entries -/

/-- **An entry of a base list**: its brackets match, and it has no comma outside
of them. -/
structure IsEntry (cs : List Char) : Prop where
  balanced : Balanced cs
  undivided : ∀ a b, cs = a ++ ',' :: b → opened a ≠ 0

theorem isEntry_iff {cs : List Char} : IsEntry cs ↔
    Balanced cs ∧ ∀ n < cs.length, cs[n]? = some ',' → opened (cs.take n) ≠ 0 := by
  rw [← forall_split_iff (P := fun a _ => opened a ≠ 0)]
  exact ⟨fun h => ⟨h.balanced, h.undivided⟩, fun h => ⟨h.1, h.2⟩⟩

instance (cs : List Char) : Decidable (IsEntry cs) :=
  decidable_of_iff' _ isEntry_iff

/-- A text without commas outside of brackets goes in front of the first entry
of what follows. -/
theorem entries_append {depth : Nat} {cs rest w : List Char} {ws : List (List Char)}
    (h : ∀ a b, cs = a ++ ',' :: b → depthBehind depth a ≠ 0)
    (hrest : entries (depthBehind depth cs) rest = w :: ws) :
    entries depth (cs ++ rest) = (cs ++ w) :: ws := by
  induction cs generalizing depth with
  | nil => exact hrest
  | cons c cs ih =>
    have hpast : ¬(c = ',' ∧ depth = 0) := by
      rintro ⟨rfl, rfl⟩
      exact h [] cs rfl rfl
    have hbehind : entries (depthAfter depth c) (cs ++ rest) = (cs ++ w) :: ws := by
      refine ih ?_ hrest
      rintro a b rfl
      exact h (c :: a) b rfl
    rw [List.cons_append, entries, if_neg hpast, hbehind]
    rfl

theorem IsEntry.entries_append {cs rest w : List Char} {ws : List (List Char)} (h : IsEntry cs)
    (hrest : entries 0 rest = w :: ws) : entries 0 (cs ++ rest) = (cs ++ w) :: ws := by
  refine BaseList.entries_append ?_ ?_
  · rintro a b rfl
    rw [Ne, h.balanced.depthBehind_eq_zero_iff ⟨_, rfl⟩]
    exact h.undivided a b rfl
  · rw [h.balanced.depthBehind]
    exact hrest

/-- **The commas between entries are found**, and no other ones. -/
theorem entries_intercalate {ws : List (List Char)} (hne : ws ≠ []) (h : ∀ w ∈ ws, IsEntry w) :
    entries 0 ([','].intercalate ws) = ws := by
  induction ws with
  | nil => exact absurd rfl hne
  | cons w ws ih =>
    rw [List.forall_mem_cons] at h
    cases ws with
    | nil =>
      have hend : entries 0 (w ++ []) = [w ++ []] := h.1.entries_append rfl
      simpa using hend
    | cons w' ws =>
      rw [List.intercalate_cons_cons]
      have hcomma : entries 0 (',' :: [','].intercalate (w' :: ws)) = [] :: w' :: ws := by
        rw [entries, if_pos ⟨rfl, rfl⟩, ih (List.cons_ne_nil _ _) h.2]
      have hfirst := h.1.entries_append hcomma
      simpa using hfirst

theorem balanced_intercalate {ws : List (List Char)} (h : ∀ w ∈ ws, Balanced w) :
    Balanced ([','].intercalate ws) := by
  induction ws with
  | nil => exact Balanced.nil
  | cons w ws ih =>
    rw [List.forall_mem_cons] at h
    cases ws with
    | nil => simpa using h.1
    | cons w' ws =>
      rw [List.intercalate_cons_cons]
      exact (h.1.append (Balanced.nil.cons rfl)).append (ih h.2)

/-- Blanks in front of an entry belong to it. -/
theorem IsEntry.cons_space {cs : List Char} (h : IsEntry cs) : IsEntry (' ' :: cs) where
  balanced := h.balanced.cons rfl
  undivided := by
    intro a b hab
    cases a with
    | nil => simp at hab
    | cons c a =>
      obtain ⟨rfl, rfl⟩ := List.cons.inj hab
      have hspace : opened (' ' :: a) = opened a := by simp [opened, weight]
      rw [hspace]
      exact h.undivided a b rfl

/-- A text without a comma outside of brackets is one entry. -/
theorem entries_eq_singleton {depth : Nat} {cs : List Char}
    (h : ∀ a b, cs = a ++ ',' :: b → depthBehind depth a ≠ 0) : entries depth cs = [cs] := by
  have hend : entries depth (cs ++ []) = [cs ++ []] := entries_append h rfl
  simpa using hend

/-- Where a bracket is open, a balanced text is part of an entry. -/
theorem Balanced.entries_eq_singleton {cs : List Char} (h : Balanced cs) {depth : Nat}
    (hdepth : 0 < depth) : entries depth cs = [cs] := by
  refine BaseList.entries_eq_singleton ?_
  rintro a b rfl
  have hle := h.le_depthBehind depth (List.prefix_append a _)
  omega

/-- A text has no comma outside of brackets, or a first one. -/
theorem exists_first_comma (depth : Nat) (cs : List Char) :
    (∀ a b, cs = a ++ ',' :: b → depthBehind depth a ≠ 0) ∨
      ∃ w rest, cs = w ++ ',' :: rest ∧ depthBehind depth w = 0 ∧
        ∀ a b, w = a ++ ',' :: b → depthBehind depth a ≠ 0 := by
  induction cs generalizing depth with
  | nil => exact Or.inl (by simp)
  | cons c cs ih =>
    by_cases hhere : c = ',' ∧ depth = 0
    · obtain ⟨rfl, rfl⟩ := hhere
      exact Or.inr ⟨[], cs, rfl, rfl, by simp⟩
    · -- At `c` there is no such comma, so it is looked for behind.
      have hlater : ∀ w : List Char,
          (∀ a b, w = a ++ ',' :: b → depthBehind (depthAfter depth c) a ≠ 0) →
            ∀ a b, c :: w = a ++ ',' :: b → depthBehind depth a ≠ 0 := by
        intro w hw a b hab hdepth
        cases a with
        | nil => exact hhere ⟨(List.cons.inj hab).1, hdepth⟩
        | cons d a =>
          obtain ⟨rfl, rfl⟩ := List.cons.inj hab
          exact hw a b rfl hdepth
      rcases ih (depthAfter depth c) with hnone | ⟨w, rest, rfl, hdepth, hw⟩
      · exact Or.inl (hlater cs hnone)
      · exact Or.inr ⟨c :: w, rest, rfl, hdepth, hlater w hw⟩

/-- **The last entry of a text**, and what follows. No bracket is open behind
the entries before it; and a text behind belongs to the last entry up to its
first comma. -/
theorem exists_last_entry (cs : List Char) :
    ∃ init last, entries 0 cs = init ++ [last] ∧ (∀ w ∈ init, depthBehind 0 w = 0) ∧
      depthBehind 0 last = depthBehind 0 cs ∧
      ∀ rest w ws, entries (depthBehind 0 cs) rest = w :: ws →
        entries 0 (cs ++ rest) = init ++ (last ++ w) :: ws := by
  induction hlength : cs.length using Nat.strong_induction_on generalizing cs with
  | _ n ih =>
    rcases exists_first_comma 0 cs with hnone | ⟨w, rest, rfl, hdepth, hw⟩
    · exact ⟨[], cs, entries_eq_singleton hnone, by simp, rfl,
        fun rest w ws hrest => entries_append hnone hrest⟩
    · obtain ⟨init, last, hentries, hinit, hlast, hmore⟩ :=
        ih rest.length (by rw [← hlength]; simp; omega) rest rfl
      have hfirst : ∀ rest, entries 0 (w ++ ',' :: rest) = w :: entries 0 rest := fun rest => by
        have hcomma : entries (depthBehind 0 w) (',' :: rest) = [] :: entries 0 rest := by
          rw [hdepth, entries, if_pos ⟨rfl, rfl⟩]
        rw [entries_append hw hcomma, List.append_nil]
      have hbehind : depthBehind 0 (w ++ ',' :: rest) = depthBehind 0 rest := by
        rw [depthBehind_append, hdepth]
        rfl
      refine ⟨w :: init, last, by rw [hfirst, hentries, List.cons_append],
        List.forall_mem_cons.mpr ⟨hdepth, hinit⟩, by rw [hbehind, hlast], ?_⟩
      intro more v vs hvs
      rw [hbehind] at hvs
      rw [List.append_assoc, List.cons_append, hfirst, hmore more v vs hvs, List.cons_append]

end BaseList

end SharpSource
