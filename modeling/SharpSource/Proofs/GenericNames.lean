import SharpSource.Proofs.BaseScans
import SharpSource.TypeDesc

/-!
# Reading generic names

A generic name is all that a base list keeps of a type, and lists drop names
that they have already. So the name should tell which type it was: its simple
name, and those of its parameters or arguments at every depth, which together
are a **tree of names** (`TypeDesc.nameTree`). The rest of a description does
not show.

As long as no simple name holds an angle bracket or a comma, the tree can be
read off the name. A simple name ends at the first of these three characters, an
argument at a comma or at the bracket that closes the list, and so a tree is
determined by any text that starts with it and goes on in such a way. This is
the statement that the induction goes through with
(`NameTree.chars_append_inj`), and the names themselves are the case where
nothing follows (`TypeDesc.genericName_eq_iff`).
-/

namespace SharpSource

/-- **The tree of names** of a type: its simple name, and the trees of its
generic parameters or arguments in order. -/
inductive NameTree where
  | node (name : String) (arguments : List NameTree)

namespace TypeDesc

mutual

/-- The tree of names of a description. -/
def nameTree : TypeDesc → NameTree
  | ⟨f, _, _, generics, _, _⟩ => .node f.name (nameTrees generics)

/-- The trees of names of a list of descriptions. -/
def nameTrees : List TypeDesc → List NameTree
  | [] => []
  | d :: ds => nameTree d :: nameTrees ds

end

end TypeDesc

/-! ### Dividers -/

namespace NameTree

/-- The characters that divide the names in a generic name. -/
def isDivider (c : Char) : Bool :=
  c == '<' || c == '>' || c == ','

/-- **An undivided name** has none of these characters in it. -/
def IsUndivided (name : String) : Prop :=
  ∀ c ∈ name.toList, isDivider c = false

instance (name : String) : Decidable (IsUndivided name) :=
  inferInstanceAs (Decidable (∀ c ∈ name.toList, isDivider c = false))

/-- A text **goes on behind a name** when there is none of it, or when it starts
with a divider. -/
def GoesOn (rest : List Char) : Prop :=
  ∀ c ∈ rest.head?, isDivider c = true

/-- A text **goes on behind a tree** when there is none of it, or when it starts
with a comma or with the bracket that closes a list. -/
def Follows (rest : List Char) : Prop :=
  ∀ c ∈ rest.head?, c = ',' ∨ c = '>'

theorem goesOn_opening (rest : List Char) : GoesOn ('<' :: rest) := fun c hc => by
  cases hc
  rfl

theorem not_follows_opening (rest : List Char) : ¬Follows ('<' :: rest) := fun h =>
  absurd (h '<' rfl) (by decide)

theorem Follows.goesOn {rest : List Char} (h : Follows rest) : GoesOn rest := fun c hc => by
  rcases h c hc with rfl | rfl <;> decide

/-- Behind an undivided name, the text is what is left from the first divider
on. -/
theorem dropWhile_append {name : String} (h : IsUndivided name) {rest : List Char}
    (hrest : GoesOn rest) : (name.toList ++ rest).dropWhile (!isDivider ·) = rest := by
  rw [List.dropWhile_append_of_pos fun c hc => by rw [h c hc, Bool.not_false]]
  cases rest with
  | nil => rfl
  | cons c rest => rw [List.dropWhile_cons_of_neg (by simp [hrest c rfl])]

/-- **A name is read up to the first divider.** -/
theorem name_append_inj {name name' : String} (h : IsUndivided name) (h' : IsUndivided name')
    {rest rest' : List Char} (hrest : GoesOn rest) (hrest' : GoesOn rest')
    (heq : name.toList ++ rest = name'.toList ++ rest') : name = name' ∧ rest = rest' := by
  have hbehind := congrArg (List.dropWhile (!isDivider ·)) heq
  rw [dropWhile_append h hrest, dropWhile_append h' hrest'] at hbehind
  subst hbehind
  exact ⟨String.toList_inj.mp (List.append_cancel_right heq), rfl⟩

/-! ### How trees are written -/

mutual

/-- The names in a tree, each in front of those below it. -/
def names : NameTree → List String
  | node name ts => name :: namesOf ts

/-- The names in some trees. -/
def namesOf : List NameTree → List String
  | [] => []
  | t :: ts => names t ++ namesOf ts

end

mutual

/-- The characters of a tree as it is written. -/
def chars : NameTree → List Char
  | node name [] => name.toList
  | node name (t :: ts) => name.toList ++ '<' :: (chars t ++ charsBehind ts)

/-- The characters behind an argument: the arguments that follow it, and the
bracket at the end. -/
def charsBehind : List NameTree → List Char
  | [] => ['>']
  | t :: ts => ',' :: ' ' :: (chars t ++ charsBehind ts)

end

theorem intercalate_chars (t : NameTree) (ts : List NameTree) :
    [',', ' '].intercalate (chars t :: ts.map chars) ++ ['>'] = chars t ++ charsBehind ts := by
  induction ts generalizing t with
  | nil => simp [charsBehind]
  | cons t' ts ih =>
    rw [List.map_cons, List.intercalate_cons_cons, List.append_assoc, ih, charsBehind]
    simp

theorem follows_charsBehind (ts : List NameTree) (rest : List Char) :
    Follows (charsBehind ts ++ rest) := by
  cases ts with
  | nil => exact fun c hc => .inr (Option.some.inj hc).symm
  | cons t ts => exact fun c hc => .inl (Option.some.inj hc).symm

end NameTree

namespace TypeDesc

open NameTree (chars)

mutual

/-- **A generic name is its tree of names**, written. -/
theorem toList_genericName : ∀ d : TypeDesc, d.genericName.toList = d.nameTree.chars
  | ⟨f, _, _, [], _, _⟩ => by rw [genericName, nameTree, nameTrees, chars]
  | ⟨f, _, _, g :: gs, _, _⟩ => by
    have hfirst := toList_genericName g
    have hrest := map_toList_genericNames gs
    rw [genericName, nameTree, nameTrees, chars, ← NameTree.intercalate_chars, ← hfirst, ← hrest]
    simp [String.toList_intercalate]

theorem map_toList_genericNames :
    ∀ ds : List TypeDesc, (genericNames ds).map String.toList = (nameTrees ds).map chars
  | [] => rfl
  | d :: ds => by
    rw [genericNames, nameTrees, List.map_cons, List.map_cons, toList_genericName d,
      map_toList_genericNames ds]

end

end TypeDesc

/-! ### Reading trees -/

namespace NameTree

mutual

/-- **A tree is read off any text that starts with it.** Two texts that start
with trees, and follow them as texts do, are the same only when the trees and
what follows them are. -/
theorem chars_append_inj : ∀ (t t' : NameTree) {rest rest' : List Char},
    (∀ n ∈ t.names, IsUndivided n) → (∀ n ∈ t'.names, IsUndivided n) →
    Follows rest → Follows rest' → chars t ++ rest = chars t' ++ rest' → t = t' ∧ rest = rest'
  | node n [], node n' [], rest, rest', h, h', hrest, hrest', heq => by
    rw [chars, chars] at heq
    obtain ⟨rfl, rfl⟩ := name_append_inj (h n (List.mem_cons_self ..))
      (h' n' (List.mem_cons_self ..)) hrest.goesOn hrest'.goesOn heq
    exact ⟨rfl, rfl⟩
  | node n [], node n' (t' :: ts'), rest, rest', h, h', hrest, hrest', heq => by
    -- Behind the name, one text goes on with an opening bracket, and the other must not.
    rw [chars, chars, List.append_assoc] at heq
    obtain ⟨-, rfl⟩ := name_append_inj (h n (List.mem_cons_self ..))
      (h' n' (List.mem_cons_self ..)) hrest.goesOn (goesOn_opening _) heq
    exact absurd hrest (not_follows_opening _)
  | node n (t :: ts), node n' [], rest, rest', h, h', hrest, hrest', heq => by
    rw [chars, chars, List.append_assoc] at heq
    obtain ⟨-, rfl⟩ := name_append_inj (h n (List.mem_cons_self ..))
      (h' n' (List.mem_cons_self ..)) (goesOn_opening _) hrest'.goesOn heq
    exact absurd hrest' (not_follows_opening _)
  | node n (t :: ts), node n' (t' :: ts'), rest, rest', h, h', hrest, hrest', heq => by
    rw [chars, chars, List.append_assoc, List.append_assoc, List.cons_append, List.cons_append,
      List.append_assoc, List.append_assoc] at heq
    rw [names, namesOf, List.forall_mem_cons, List.forall_mem_append] at h h'
    obtain ⟨rfl, hlists⟩ := name_append_inj h.1 h'.1 (goesOn_opening _) (goesOn_opening _) heq
    obtain ⟨rfl, hbehind⟩ := chars_append_inj t t' h.2.1 h'.2.1 (follows_charsBehind ts rest)
      (follows_charsBehind ts' rest') (List.cons.inj hlists).2
    obtain ⟨rfl, rfl⟩ := charsBehind_append_inj ts ts' h.2.2 h'.2.2 hrest hrest' hbehind
    exact ⟨rfl, rfl⟩

theorem charsBehind_append_inj : ∀ (ts ts' : List NameTree) {rest rest' : List Char},
    (∀ n ∈ namesOf ts, IsUndivided n) → (∀ n ∈ namesOf ts', IsUndivided n) →
    Follows rest → Follows rest' → charsBehind ts ++ rest = charsBehind ts' ++ rest' →
    ts = ts' ∧ rest = rest'
  | [], [], rest, rest', _, _, _, _, heq => ⟨rfl, (List.cons.inj heq).2⟩
  | [], t' :: ts', rest, rest', _, _, _, _, heq => absurd (List.cons.inj heq).1 (by decide)
  | t :: ts, [], rest, rest', _, _, _, _, heq => absurd (List.cons.inj heq).1 (by decide)
  | t :: ts, t' :: ts', rest, rest', h, h', hrest, hrest', heq => by
    rw [charsBehind, charsBehind] at heq
    simp only [List.cons_append, List.append_assoc, List.cons.injEq, true_and] at heq
    rw [namesOf, List.forall_mem_append] at h h'
    obtain ⟨rfl, hbehind⟩ := chars_append_inj t t' h.1 h'.1 (follows_charsBehind ts rest)
      (follows_charsBehind ts' rest') heq
    obtain ⟨rfl, rfl⟩ := charsBehind_append_inj ts ts' h.2 h'.2 hrest hrest' hbehind
    exact ⟨rfl, rfl⟩

end

/-- **A tree is read off its characters.** -/
theorem chars_inj {t t' : NameTree} (h : ∀ n ∈ t.names, IsUndivided n)
    (h' : ∀ n ∈ t'.names, IsUndivided n) (heq : chars t = chars t') : t = t' := by
  have hnone : Follows [] := fun c hc => by cases hc
  exact (chars_append_inj t t' h h' hnone hnone (by rw [heq])).1

/-! ### Brackets -/

/-- The angle brackets in a text. -/
def angles (cs : List Char) : List Char :=
  cs.filter fun c => c == '<' || c == '>'

/-- **The angle brackets of a text match**: none is closed that is not open, and
none is left open. Brackets of other kinds do not count. -/
def AnglesMatch (cs : List Char) : Prop :=
  BaseList.Balanced (angles cs)

instance (cs : List Char) : Decidable (AnglesMatch cs) :=
  inferInstanceAs (Decidable (BaseList.Balanced _))

theorem AnglesMatch.append {cs cs' : List Char} (h : AnglesMatch cs) (h' : AnglesMatch cs') :
    AnglesMatch (cs ++ cs') := by
  rw [AnglesMatch, angles, List.filter_append]
  exact BaseList.Balanced.append h h'

/-- A list between angle brackets. -/
theorem AnglesMatch.between {cs : List Char} (h : AnglesMatch cs) :
    AnglesMatch ('<' :: (cs ++ ['>'])) := by
  have hangles : angles ('<' :: (cs ++ ['>'])) = '<' :: (angles cs ++ ['>']) := by
    simp [angles]
  rw [AnglesMatch, hangles]
  exact BaseList.Balanced.between h rfl rfl

theorem IsUndivided.anglesMatch {name : String} (h : IsUndivided name) :
    AnglesMatch name.toList := by
  have hnone : angles name.toList = [] := by
    refine List.filter_eq_nil_iff.mpr fun c hc => ?_
    have hdivider := h c hc
    rw [isDivider, Bool.or_eq_false_iff] at hdivider
    rw [hdivider.1]
    exact Bool.false_ne_true
  rw [AnglesMatch, hnone]
  exact .nil

mutual

/-- **The angle brackets of a tree match** when those of each name in it do. -/
theorem anglesMatch_chars : ∀ t : NameTree, (∀ n ∈ t.names, AnglesMatch n.toList) →
    AnglesMatch (chars t)
  | node n [], h => by
    rw [chars]
    exact h n (List.mem_cons_self ..)
  | node n (t :: ts), h => by
    rw [names, namesOf, List.forall_mem_cons, List.forall_mem_append] at h
    obtain ⟨cs, hcs, hmatch⟩ := exists_anglesMatch_charsBehind ts h.2.2
    rw [chars, hcs, ← List.append_assoc]
    exact h.1.append ((anglesMatch_chars t h.2.1).append hmatch).between

/-- Behind an argument, all but the last bracket matches. -/
theorem exists_anglesMatch_charsBehind : ∀ ts : List NameTree,
    (∀ n ∈ namesOf ts, AnglesMatch n.toList) →
    ∃ cs, charsBehind ts = cs ++ ['>'] ∧ AnglesMatch cs
  | [], _ => ⟨[], rfl, .nil⟩
  | t :: ts, h => by
    rw [namesOf, List.forall_mem_append] at h
    obtain ⟨cs, hcs, hmatch⟩ := exists_anglesMatch_charsBehind ts h.2
    refine ⟨',' :: ' ' :: (chars t ++ cs), by rw [charsBehind, hcs]; simp, ?_⟩
    exact (anglesMatch_chars t h.1).append hmatch

end

end NameTree

/-! ### Generic names -/

open NameTree (IsUndivided AnglesMatch)

/-- **Generic names are unambiguous.** As long as no simple name in two
descriptions, at any depth of their parameters or arguments, holds an angle
bracket or a comma, they have the same generic name exactly when they have the
same tree of names. And the angle brackets of such a name match. -/
theorem TypeDesc.genericName_eq_iff {d d' : TypeDesc} (h : ∀ n ∈ d.nameTree.names, IsUndivided n)
    (h' : ∀ n ∈ d'.nameTree.names, IsUndivided n) :
    (d.genericName = d'.genericName ↔ d.nameTree = d'.nameTree) ∧
      AnglesMatch d.genericName.toList := by
  refine ⟨⟨fun heq => ?_, fun heq => ?_⟩, ?_⟩
  · refine NameTree.chars_inj h h' ?_
    rw [← toList_genericName, ← toList_genericName, heq]
  · rw [← String.toList_inj, toList_genericName, toList_genericName, heq]
  · rw [toList_genericName]
    exact NameTree.anglesMatch_chars _ fun n hn => (h n hn).anglesMatch

/-- The same names in the same order, under another type: an argument of the
whole, or of one of its arguments. -/
theorem TypeDesc.genericName_eq_iff_nested :
    let pair : TypeDesc := { ofName "Pair" with generics := [ofName "Key", ofName "Value"] }
    let single : TypeDesc := { ofName "Pair" with generics := [ofName "Key"] }
    let outside : TypeDesc := { ofName "Map" with generics := [single, ofName "Value"] }
    let inside : TypeDesc := { ofName "Map" with generics := [pair] }
    (∀ n ∈ outside.nameTree.names, IsUndivided n) ∧ (∀ n ∈ inside.nameTree.names, IsUndivided n) ∧
      outside.nameTree.names = inside.nameTree.names ∧
      outside.genericName = "Map<Pair<Key>, Value>" ∧ outside.nameTree ≠ inside.nameTree ∧
      outside.genericName ≠ inside.genericName ∧ AnglesMatch outside.genericName.toList := by
  intro pair single outside inside
  have hnames : ∀ n ∈ ["Map", "Pair", "Key", "Value"], IsUndivided n := by
    simp [IsUndivided, NameTree.isDivider]
  have houtside : outside.nameTree.names = ["Map", "Pair", "Key", "Value"] := rfl
  have hinside : inside.nameTree.names = ["Map", "Pair", "Key", "Value"] := rfl
  have hne : outside.nameTree ≠ inside.nameTree := by
    simp [outside, inside, ofName, nameTree, nameTrees]
  obtain ⟨hiff, hmatch⟩ := genericName_eq_iff (houtside ▸ hnames) (hinside ▸ hnames)
  exact ⟨houtside ▸ hnames, hinside ▸ hnames, rfl, by decide +kernel, hne,
    fun heq => hne (hiff.mp heq), hmatch⟩

/-- A comma in a name may stand for the end of an argument. -/
example :
    TypeDesc.genericName { TypeDesc.ofName "List" with generics := [.ofName "A, B"] } =
      TypeDesc.genericName
        { TypeDesc.ofName "List" with generics := [.ofName "A", .ofName "B"] } := by
  decide +kernel

end SharpSource
