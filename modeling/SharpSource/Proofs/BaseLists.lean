import SharpSource.Proofs.BaseScans

/-!
# Adding to a base list

A declaration is read four times when something is added to its base list: for
the constraints, for the colon that starts the list, for the commas between its
entries, and entry by entry for what is listed already. The readings have to
agree on what is inside of brackets, and on what comes out of the addition,
which is read again when more is added later.

The text is taken to be written as declarations are: brackets match in its head
and in each entry of its list, a colon of the head that is outside of brackets
belongs to a double one, and the word `where` is only in the constraints. Then
the scan for the colon ends where the list starts
(`BaseList.splitColon_listed`), the scan for commas gives the entries
(`BaseList.entries_intercalate`), and the constraints are cut off in front of
their word (`BaseList.cutConstraints_append`). What is written is read back
whatever the text in front of it is, as long as no bracket is left open there
(`BaseList.ofHead?_append_behind`, `BaseList.ofHead?_begun`). So the addition
stands between the list and the constraints and nothing else changes; and a
second time there is nothing left to add (`BaseList.extend_edits_list`).
-/

namespace SharpSource

/-! ### The first place of a pattern -/

namespace Text

/-- When a pattern starts nowhere in a text, whatever follows it, the place of
the pattern is found behind the text. -/
theorem breakAt?_append {pattern cs rest : List Char}
    (h : ∀ s, s <:+ cs → s ≠ [] → afterStart? pattern (s ++ rest) = none) :
    breakAt? pattern (cs ++ rest) = (breakAt? pattern rest).map fun r => (cs ++ r.1, r.2) := by
  induction cs with
  | nil => simp
  | cons c cs ih =>
    have hhere : afterStart? pattern (c :: cs ++ rest) = none := h _ List.suffix_rfl (by simp)
    rw [List.cons_append] at hhere ⊢
    rw [breakAt?, hhere, ih fun s hs hne => h s (hs.trans (List.suffix_cons c cs)) hne]
    cases breakAt? pattern rest <;> simp

theorem breakAt?_self_append {pattern : List Char} (h : pattern ≠ []) (rest : List Char) :
    breakAt? pattern (pattern ++ rest) = some ([], rest) := by
  cases pattern with
  | nil => exact absurd rfl h
  | cons p ps => rw [List.cons_append, breakAt?, ← List.cons_append, afterStart?_append]

end Text

namespace BaseList

/-! ### The constraints -/

/-- A text in which the word of the constraints is nowhere. -/
def FreeOfWhere (cs : List Char) : Prop :=
  ¬"where".toList <:+: cs

instance (cs : List Char) : Decidable (FreeOfWhere cs) :=
  inferInstanceAs (Decidable (¬_))

theorem toList_where : " where ".toList = ' ' :: ("where".toList ++ [' ']) := by
  decide

/-- A word at the start of two texts that meet at a character it does not have
is at the start of the first. -/
theorem prefix_of_prefix_append_cons {w cs cs' : List Char} {c : Char} (h : w <+: cs ++ c :: cs')
    (hc : c ∉ w) : w <+: cs := by
  rcases List.prefix_or_prefix_of_prefix h (List.prefix_append cs _) with hshort | ⟨v, rfl⟩
  · exact hshort
  · rcases List.prefix_cons_iff.mp ((List.prefix_append_right_inj cs).mp h) with rfl | ⟨v, rfl, -⟩
    · simp
    · simp at hc

/-- Where two texts meet at a character that the word does not have, it cannot
come about. -/
theorem FreeOfWhere.append_cons {cs cs' : List Char} {c : Char} (h : FreeOfWhere cs)
    (h' : FreeOfWhere cs') (hc : c ∉ "where".toList) : FreeOfWhere (cs ++ c :: cs') := by
  intro hword
  rcases List.infix_append_iff.mp hword with hleft | hright | ⟨u, v, huv, hu, hv⟩
  · exact h hleft
  · rcases List.infix_cons_iff.mp hright with hfirst | hlater
    · have hnil := List.prefix_nil.mp (@prefix_of_prefix_append_cons _ [] _ _ hfirst hc)
      exact absurd hnil (by decide)
    · exact h' hlater
  · -- The part of the word behind the place is empty, so all of it is in front.
    have hpart : c ∉ v := fun hmem => hc (huv ▸ List.mem_append_right u hmem)
    have hnil := List.prefix_nil.mp (@prefix_of_prefix_append_cons _ [] _ _ hv hpart)
    rw [hnil, List.append_nil] at huv
    exact h (huv ▸ hu.isInfix)

theorem FreeOfWhere.cons {cs : List Char} {c : Char} (h : FreeOfWhere cs)
    (hc : c ∉ "where".toList) : FreeOfWhere (c :: cs) :=
  @FreeOfWhere.append_cons [] _ _ (by decide) h hc

/-- **The constraints are cut off in front of their word**, where the word is
nowhere before. -/
theorem cutConstraints_append {head tail : List Char} (h : FreeOfWhere head)
    (htail : tail = [] ∨ " where ".toList <+: tail) :
    cutConstraints (head ++ tail) = (head, tail) := by
  rw [toList_where] at htail
  have hnowhere : ∀ s, s <:+ head → s ≠ [] →
      Text.afterStart? (' ' :: ("where".toList ++ [' '])) (s ++ tail) = none := by
    intro s hs hne
    rw [Option.eq_none_iff_forall_ne_some]
    intro rest hrest
    obtain ⟨c, s, rfl⟩ := List.exists_cons_of_ne_nil hne
    -- Behind the blank the word starts in `s`, and it cannot end in the tail.
    have hword : "where".toList <+: s ++ tail := by
      have hsplit : s ++ tail = "where".toList ++ [' '] ++ rest :=
        (List.cons.inj (Text.eq_append_of_afterStart? hrest)).2
      exact ⟨' ' :: rest, by rw [hsplit, List.append_assoc, List.singleton_append]⟩
    have hshort : "where".toList <+: s := by
      rcases htail with rfl | ⟨t, rfl⟩
      · rwa [List.append_nil] at hword
      · exact prefix_of_prefix_append_cons (c := ' ') hword (by decide)
    exact h ((hshort.isInfix.trans (List.suffix_cons c s).isInfix).trans hs.isInfix)
  rw [cutConstraints, toList_where, Text.breakAt?_append hnowhere]
  rcases htail with rfl | ⟨t, rfl⟩
  · simp [Text.breakAt?, Text.afterStart?]
  · rw [Text.breakAt?_self_append (List.cons_ne_nil _ _), Option.map_some, List.append_nil]

/-! ### Names that are added -/

/-- **A name that can be added** to a base list: an entry that is not empty,
with no blanks around it and without the word of the constraints. -/
structure IsAddable (s : String) : Prop where
  entry : IsEntry s.toList
  trimmed : Text.trim s = s
  nonempty : s ≠ ""
  free : FreeOfWhere s.toList

theorem isAddable_iff {s : String} : IsAddable s ↔
    IsEntry s.toList ∧ Text.trim s = s ∧ s ≠ "" ∧ FreeOfWhere s.toList :=
  ⟨fun h => ⟨h.entry, h.trimmed, h.nonempty, h.free⟩, fun ⟨h₁, h₂, h₃, h₄⟩ => ⟨h₁, h₂, h₃, h₄⟩⟩

instance (s : String) : Decidable (IsAddable s) :=
  decidable_of_iff' _ isAddable_iff

/-- Names behind others, each with a comma and a space in front. -/
def behind (names : List String) : String :=
  String.join (names.map (", " ++ ·))

/-- A base list as a text, with the colon that it starts with. -/
def listText : Option (List String) → String
  | some entries => ":" ++ ",".intercalate entries
  | none => ""

/-- **What is added** to a declaration. A list takes the interfaces that are not
among its entries. Where there is no list, one is started with the base type, if
any, and all interfaces. -/
def added (listed : Option (List String)) (base : Option String) (interfaces : List String) :
    String :=
  match listed with
  | some entries => behind (interfaces.filter (· ∉ entries.map Text.trim))
  | none =>
    match base.toList ++ interfaces with
    | [] => ""
    | names => " : " ++ ", ".intercalate names

theorem behind_cons (name : String) (names : List String) :
    behind (name :: names) = "," ++ (" " ++ name) ++ behind names := by
  rw [behind, List.map_cons, String.join_cons, ← String.append_assoc]
  rfl

theorem head?_behind (names : List String) : (behind names).toList.head? ≠ some ':' := by
  cases names with
  | nil => simp [behind]
  | cons name names => simp [behind_cons]

theorem intercalate_eq_behind (name : String) (names : List String) :
    ", ".intercalate (name :: names) = name ++ behind names := by
  induction names generalizing name with
  | nil => simp [behind]
  | cons name' names ih =>
    have hcomma : ", " = "," ++ " " := by decide
    rw [String.intercalate_cons_cons, ih, behind_cons, hcomma]
    simp only [String.append_assoc]

theorem toList_behind_cons (name : String) (names : List String) :
    (behind (name :: names)).toList = ',' :: (' ' :: name.toList ++ (behind names).toList) := by
  rw [behind_cons]
  simp

theorem toList_begun (name : String) (names : List String) :
    (" : " ++ ", ".intercalate (name :: names)).toList =
      ' ' :: ':' :: ' ' :: (name.toList ++ (behind names).toList) := by
  rw [intercalate_eq_behind]
  simp

theorem balanced_behind {names : List String} (h : ∀ n ∈ names, IsEntry n.toList) :
    Balanced (behind names).toList := by
  induction names with
  | nil => exact Balanced.nil
  | cons name names ih =>
    rw [List.forall_mem_cons] at h
    rw [toList_behind_cons]
    exact (h.1.cons_space.balanced.append (ih h.2)).cons rfl

/-- **Names behind a text** are entries, each with a space in front. -/
theorem entries_behind {names : List String} (h : ∀ n ∈ names, IsEntry n.toList) :
    entries 0 (behind names).toList = [] :: names.map fun n => ' ' :: n.toList := by
  induction names with
  | nil => rfl
  | cons name names ih =>
    rw [List.forall_mem_cons] at h
    rw [toList_behind_cons, entries, if_pos ⟨rfl, rfl⟩, h.1.cons_space.entries_append (ih h.2),
      List.append_nil, List.map_cons]

/-- The spaces in front of names do not count. -/
theorem map_trimChars_cons_space (names : List String) :
    (names.map fun n => ' ' :: n.toList).map (String.ofList ∘ Text.trimChars) =
      names.map Text.trim := by
  rw [List.map_map]
  refine List.map_congr_left fun n _ => ?_
  show String.ofList (Text.trimChars (' ' :: n.toList)) = Text.trim n
  rw [Text.trim, Text.trimChars, Text.trimChars, List.dropWhile_cons_of_pos (by decide)]

theorem map_trim_eq_self {names : List String} (h : ∀ n ∈ names, Text.trim n = n) :
    names.map Text.trim = names :=
  (List.map_congr_left h).trans names.map_id'

/-- The word of the constraints does not come about where names are put behind a
text. -/
theorem FreeOfWhere.append_behind {cs : List Char} (h : FreeOfWhere cs) {names : List String}
    (hnames : ∀ n ∈ names, FreeOfWhere n.toList) : FreeOfWhere (cs ++ (behind names).toList) := by
  induction names generalizing cs with
  | nil => simpa [behind] using h
  | cons name names ih =>
    rw [List.forall_mem_cons] at hnames
    have hname : FreeOfWhere (cs ++ ',' :: ' ' :: name.toList) :=
      h.append_cons (hnames.1.cons (by decide)) (by decide)
    have hrest := ih hname hnames.2
    rw [behind_cons]
    simpa using hrest

/-- Nor where a list is started. -/
theorem FreeOfWhere.append_begun {cs : List Char} (h : FreeOfWhere cs) {name : String}
    {names : List String} (hnames : ∀ n ∈ name :: names, FreeOfWhere n.toList) :
    FreeOfWhere (cs ++ (" : " ++ ", ".intercalate (name :: names)).toList) := by
  rw [List.forall_mem_cons] at hnames
  have hfirst : FreeOfWhere (cs ++ ' ' :: ':' :: ' ' :: name.toList) :=
    h.append_cons ((hnames.1.cons (by decide)).cons (by decide)) (by decide)
  have hall := hfirst.append_behind hnames.2
  rw [toList_begun]
  simpa using hall

/-! ### Reading what was written -/

/-- The entries of a list are read behind its head. -/
theorem ofHead?_listed {head : String} {ws : List String} (hhead : IsHead head.toList)
    (hend : head.toList.getLast? ≠ some ':') (hne : ws ≠ []) (hws : ∀ w ∈ ws, IsEntry w.toList)
    (hstart : (",".intercalate ws).toList.head? ≠ some ':') :
    ofHead? (head ++ listText (some ws)).toList = some (ws.map Text.trim) := by
  have htext : (head ++ listText (some ws)).toList =
      head.toList ++ ':' :: (",".intercalate ws).toList := by
    simp [listText]
  have hentries : entries 0 (",".intercalate ws).toList = ws.map String.toList := by
    rw [String.toList_intercalate]
    refine entries_intercalate (by simpa using hne) fun w hw => ?_
    obtain ⟨s, hs, rfl⟩ := List.mem_map.mp hw
    exact hws s hs
  rw [ofHead?, htext, splitColon_listed hhead hend hstart, Option.map_some, hentries, List.map_map]
  rfl

/-- In a head with its list all brackets match. -/
theorem balanced_listed {head : String} {ws : List String} (hhead : IsHead head.toList)
    (hws : ∀ w ∈ ws, IsEntry w.toList) : Balanced (head ++ listText (some ws)).toList := by
  have hlist : Balanced (",".intercalate ws).toList := by
    rw [String.toList_intercalate]
    refine balanced_intercalate fun w hw => ?_
    obtain ⟨s, hs, rfl⟩ := List.mem_map.mp hw
    exact (hws s hs).balanced
  rw [listText, String.toList_append, String.toList_append]
  exact hhead.balanced.append ((Balanced.nil.cons rfl).append hlist)

/-- **A list is read back with the names behind it**, which are its last
entries, when no bracket is left open in front of them. -/
theorem ofHead?_append_behind {head : List Char} {listed names : List String}
    (h : ofHead? head = some listed) (hdepth : depthBehind 0 head = 0)
    (hnames : ∀ n ∈ names, IsEntry n.toList) :
    ofHead? (head ++ (behind names).toList) = some (listed ++ names.map Text.trim) := by
  obtain ⟨⟨a, b⟩, hcolon, rfl⟩ := Option.map_eq_some_iff.mp h
  obtain ⟨rfl, ha⟩ := eq_append_of_splitColon hcolon
  have hb : depthBehind 0 b = 0 := by
    rw [depthBehind_append, ha] at hdepth
    exact hdepth
  obtain ⟨init, last, hentries, -, -, hmore⟩ := exists_last_entry b
  rw [hb] at hmore
  have hlonger : entries 0 (b ++ (behind names).toList) =
      entries 0 b ++ names.map fun n => ' ' :: n.toList := by
    rw [hmore _ _ _ (entries_behind hnames), hentries, List.append_nil, List.append_cons]
  rw [ofHead?, splitColon_append_of_eq_some hcolon (head?_behind names), Option.map_some, hlonger,
    List.map_append, map_trimChars_cons_space]

/-- **Where a bracket is left open**, all that follows belongs to the last
entry. -/
theorem ofHead?_append_of_open {head rest : List Char} {listed : List String}
    (h : ofHead? head = some listed) (hdepth : 0 < depthBehind 0 head) (hrest : Balanced rest)
    (hstart : rest.head? ≠ some ':') :
    ∃ init last, listed = init ++ [String.ofList (Text.trimChars last)] ∧
      (∀ w ∈ init, depthBehind 0 w.toList = 0) ∧ depthBehind 0 last = depthBehind 0 head ∧
      ofHead? (head ++ rest) = some (init ++ [String.ofList (Text.trimChars (last ++ rest))]) := by
  obtain ⟨⟨a, b⟩, hcolon, rfl⟩ := Option.map_eq_some_iff.mp h
  obtain ⟨rfl, ha⟩ := eq_append_of_splitColon hcolon
  have hb : depthBehind 0 (a ++ ':' :: b) = depthBehind 0 b := by
    rw [depthBehind_append, ha]
    rfl
  obtain ⟨init, last, hentries, hinit, hlast, hmore⟩ := exists_last_entry b
  rw [hb] at hdepth
  have hlonger := hmore _ _ _ (hrest.entries_eq_singleton hdepth)
  refine ⟨init.map (String.ofList ∘ Text.trimChars), last, ?_, ?_, by rw [hlast, hb], ?_⟩
  · simp [hentries]
  · intro w hw
    obtain ⟨cs, hcs, rfl⟩ := List.mem_map.mp hw
    rw [Function.comp_apply, String.toList_ofList, depthBehind_trimChars]
    exact hinit cs hcs
  · rw [ofHead?, splitColon_append_of_eq_some hcolon hstart, Option.map_some]
    simp [hlonger]

/-- **The names of a list that was started** are read back, when no bracket is
left open in front of it. -/
theorem ofHead?_begun {head : List Char} {name : String} {names : List String}
    (h : ofHead? head = none) (hdepth : depthBehind 0 head = 0)
    (hnames : ∀ n ∈ name :: names, IsEntry n.toList) :
    ofHead? (head ++ (" : " ++ ", ".intercalate (name :: names)).toList) =
      some ((name :: names).map Text.trim) := by
  rw [List.forall_mem_cons] at hnames
  have hentries : entries 0 (' ' :: (name.toList ++ (behind names).toList)) =
      (name :: names).map fun n => ' ' :: n.toList := by
    rw [← List.cons_append, hnames.1.cons_space.entries_append (entries_behind hnames.2),
      List.append_nil, List.map_cons]
  rw [ofHead?, toList_begun, splitColon_begun (Option.map_eq_none_iff.mp h) hdepth, Option.map_some,
    hentries, map_trimChars_cons_space]

/-- Where a bracket is left open, no list is started. -/
theorem ofHead?_begun_of_open {head : List Char} {name : String} {names : List String}
    (h : ofHead? head = none) (hdepth : 0 < depthBehind 0 head)
    (hnames : ∀ n ∈ name :: names, IsEntry n.toList) :
    ofHead? (head ++ (" : " ++ ", ".intercalate (name :: names)).toList) = none := by
  rw [List.forall_mem_cons] at hnames
  have hlist : Balanced (' ' :: ':' :: ' ' :: (name.toList ++ (behind names).toList)) :=
    (((hnames.1.balanced.append (balanced_behind hnames.2)).cons rfl).cons rfl).cons rfl
  rw [ofHead?, toList_begun,
    splitColon_append _ (splitColon_eq_none_iff.mp (Option.map_eq_none_iff.mp h)),
    hlist.splitColon_eq_none hdepth]
  rfl

/-- A list takes the interfaces that are not on it. -/
theorem addition_eq_behind {head : List Char} {listed : List String}
    (h : ofHead? head = some listed) (base : Option String) (interfaces : List String) :
    addition head base interfaces = behind (interfaces.filter (· ∉ listed)) := by
  have hlacks : ∀ i ∈ interfaces, (!listed.contains i) = decide (i ∉ listed) := fun i _ => by
    rw [List.contains_eq_mem, decide_not]
  simp only [addition, h]
  rw [List.filter_congr hlacks, behind]

/-- A list with all interfaces on it takes none. -/
theorem addition_eq_empty {head : List Char} {listed : List String} (h : ofHead? head = some listed)
    (base : Option String) {interfaces : List String} (hall : ∀ i ∈ interfaces, i ∈ listed) :
    addition head base interfaces = "" := by
  have hnone : interfaces.filter (· ∉ listed) = [] := by
    simpa [List.filter_eq_nil_iff] using hall
  rw [addition_eq_behind h, hnone]
  rfl

/-- The word of the constraints does not come about in an addition. -/
theorem FreeOfWhere.append_addition {head : List Char} (h : FreeOfWhere head) {base : Option String}
    {interfaces : List String}
    (hnames : ∀ n ∈ Text.trimmedNonempty base.toList ++ interfaces, FreeOfWhere n.toList) :
    FreeOfWhere (head ++ (addition head base interfaces).toList) := by
  cases hlist : ofHead? head with
  | some listed =>
    rw [addition_eq_behind hlist]
    exact h.append_behind fun n hn =>
      hnames n (List.mem_append_right _ (List.mem_of_mem_filter hn))
  | none =>
    simp only [addition, hlist]
    cases hadd : Text.trimmedNonempty base.toList ++ interfaces with
    | nil => simpa using h
    | cons name names =>
      rw [hadd] at hnames
      exact h.append_begun hnames

/-- An addition stands in front of the constraints. -/
theorem extend_append {head tail : String} {base : Option String} {interfaces : List String}
    (h : FreeOfWhere head.toList) (htail : tail.toList = [] ∨ " where ".toList <+: tail.toList) :
    extend (head ++ tail) base interfaces =
      head ++ addition head.toList base interfaces ++ tail := by
  simp only [extend, String.toList_append, cutConstraints_append h htail, String.ofList_toList]

/-! ### The law of addition -/

section Law

variable {head tail : String} {listed : Option (List String)} {base : Option String}
  {interfaces : List String}
  (hhead : IsHead head.toList)
  (hlisted : ∀ ws ∈ listed, ws ≠ [] ∧ (∀ w ∈ ws, IsEntry w.toList) ∧
    head.toList.getLast? ≠ some ':' ∧ (",".intercalate ws).toList.head? ≠ some ':')
  (hfree : FreeOfWhere (head ++ listText listed).toList)
  (hnames : ∀ n ∈ base.toList ++ interfaces, IsAddable n)

include hnames in
theorem trimmedNonempty_base : Text.trimmedNonempty base.toList = base.toList := by
  cases base with
  | none => rfl
  | some b =>
    have hb := hnames b (by simp)
    simp [Text.trimmedNonempty, hb.trimmed, hb.nonempty]

include hhead in
theorem ofHead?_bare : ofHead? head.toList = none := by
  rw [ofHead?, splitColon_eq_none hhead]
  rfl

include hfree hnames in
/-- The word of the constraints does not come about in what is added. -/
theorem freeOfWhere_added :
    FreeOfWhere (head ++ listText listed ++ added listed base interfaces).toList := by
  rw [String.toList_append]
  cases listed with
  | some ws =>
    exact hfree.append_behind fun n hn =>
      (hnames n (List.mem_append_right _ (List.mem_of_mem_filter hn))).free
  | none =>
    cases hadd : base.toList ++ interfaces with
    | nil => simpa [added, hadd] using hfree
    | cons name names =>
      rw [hadd] at hnames
      rw [added, hadd]
      exact hfree.append_begun fun n hn => (hnames n hn).free

include hhead hlisted hnames

/-- What is written behind a head is what it lacks. -/
theorem addition_eq_added :
    addition (head ++ listText listed).toList base interfaces = added listed base interfaces := by
  cases listed with
  | some ws =>
    obtain ⟨hne, hws, hend, hstart⟩ := hlisted ws rfl
    rw [addition_eq_behind (ofHead?_listed hhead hend hne hws hstart), added]
  | none =>
    rw [listText, String.append_empty, addition, ofHead?_bare hhead, trimmedNonempty_base hnames]
    rfl

/-- **The addition is read back**: behind what was written nothing is lacking
any more. -/
theorem addition_behind_added :
    addition (head ++ listText listed ++ added listed base interfaces).toList base interfaces =
      "" := by
  cases listed with
  | some ws =>
    obtain ⟨hne, hws, hend, hstart⟩ := hlisted ws rfl
    have hnew : ∀ n ∈ interfaces.filter (· ∉ ws.map Text.trim), IsAddable n := fun n hn =>
      hnames n (List.mem_append_right _ (List.mem_of_mem_filter hn))
    have hlonger := ofHead?_append_behind (ofHead?_listed hhead hend hne hws hstart)
      ((balanced_listed hhead hws).depthBehind 0) fun n hn => (hnew n hn).entry
    rw [map_trim_eq_self fun n hn => (hnew n hn).trimmed, ← String.toList_append] at hlonger
    refine addition_eq_empty hlonger base fun i hi => ?_
    rw [List.mem_append]
    by_cases hold : i ∈ ws.map Text.trim
    · exact .inl hold
    · exact .inr (List.mem_filter.mpr ⟨hi, by simpa using hold⟩)
  | none =>
    rw [listText, String.append_empty]
    cases hadd : base.toList ++ interfaces with
    | nil =>
      have hempty : added none base interfaces = "" := by rw [added, hadd]
      rw [hempty, String.append_empty, addition, ofHead?_bare hhead,
        trimmedNonempty_base hnames, hadd]
    | cons name names =>
      have hbegun : added none base interfaces = " : " ++ ", ".intercalate (name :: names) := by
        rw [added, hadd]
      rw [hadd] at hnames
      have hstarted := ofHead?_begun (ofHead?_bare hhead) (hhead.balanced.depthBehind 0)
        fun n hn => (hnames n hn).entry
      rw [map_trim_eq_self fun n hn => (hnames n hn).trimmed, ← String.toList_append] at hstarted
      rw [hbegun]
      refine addition_eq_empty hstarted base fun i hi => ?_
      rw [← hadd]
      exact List.mem_append_right _ hi

include hfree in
/-- **A base list is edited in its place, and once.** Between a head, with its
list if it has one, and the constraints stands the addition, all the rest is as
it was; and adding the same again changes nothing. -/
theorem extend_edits_list (htail : tail = "" ∨ " where ".toList <+: tail.toList) :
    extend (head ++ listText listed ++ tail) base interfaces =
        head ++ listText listed ++ added listed base interfaces ++ tail ∧
      extend (head ++ listText listed ++ added listed base interfaces ++ tail) base interfaces =
        head ++ listText listed ++ added listed base interfaces ++ tail := by
  have hcut : tail.toList = [] ∨ " where ".toList <+: tail.toList := by
    rwa [String.toList_eq_nil_iff]
  constructor
  · rw [extend_append hfree hcut, addition_eq_added hhead hlisted hnames]
  · rw [extend_append (freeOfWhere_added hfree hnames) hcut,
      addition_behind_added hhead hlisted hnames, String.append_empty]

end Law

/-- A record with a colon in its parameters and commas in its arguments takes
the interface that it lacks. -/
theorem extend_edits_list_record :
    let record := "public record Pair<K, V>([property: Key] K Key, V Value)"
    let listed := some [" global::Shop.Base<K, V>", " IOrdered"]
    let interfaces := ["IEquatable<Pair<K, V>>", "IOrdered"]
    let result := record ++ ": global::Shop.Base<K, V>, IOrdered, IEquatable<Pair<K, V>>" ++
      " where K : notnull"
    extend (record ++ listText listed ++ " where K : notnull") (some "object") interfaces = result ∧
      extend result (some "object") interfaces = result := by
  intro record listed interfaces result
  have hedit := @extend_edits_list record " where K : notnull" listed (some "object") interfaces
    (by decide +kernel)
    (by
      intro ws hws
      rw [← Option.some.inj hws]
      decide +kernel)
    (by decide +kernel) (by decide +kernel) (by decide +kernel)
  have htext : record ++ listText listed ++ added listed (some "object") interfaces ++
      " where K : notnull" = result := by
    decide +kernel
  rwa [htext] at hedit

end BaseList

end SharpSource
