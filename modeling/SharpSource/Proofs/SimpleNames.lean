import SharpSource.Proofs.Blanks
import SharpSource.Proofs.Names

/-!
# The simple name of a type

The simple name of a type is the last of the segments that its qualified name
has between dots, where a dot among generic arguments divides nothing. A
reference does not count brackets to find it. It takes what follows the last dot
before the first angle bracket, which is the last segment as long as generic
arguments come at the end of a name only.

A type that stands inside of a generic one has a segment behind the arguments,
and its reference is named by that of the generic type, arguments and all. This
is the only way in which the two can differ
(`TypeRef.name_ofName_eq_lastSegment_iff`). The dot that is missed stands behind
the bracket, outside of all brackets, so the search with a count of brackets is
compared with the other one on both sides of the first bracket
(`TypeRef.afterOutsideDot?_append`).
-/

namespace SharpSource

namespace TypeRef

/-! ### Depths -/

/-- The depth of angle brackets behind a character, given the depth before it. A
bracket that closes nothing does not count. -/
def angleDepthAfter (depth : Nat) (c : Char) : Nat :=
  if c = '<' then depth + 1
  else if c = '>' then depth - 1
  else depth

/-- The depth of angle brackets behind a text. -/
def angleDepth (depth : Nat) (cs : List Char) : Nat :=
  cs.foldl angleDepthAfter depth

/-- As long as none is opened, no angle brackets are open. -/
theorem angleDepth_eq_zero {cs : List Char} (h : '<' ∉ cs) : angleDepth 0 cs = 0 := by
  induction cs with
  | nil => rfl
  | cons c cs ih =>
    rw [List.mem_cons, not_or] at h
    have hfirst : angleDepthAfter 0 c = 0 := by
      rw [angleDepthAfter, if_neg (Ne.symm h.1), Nat.zero_sub, ite_self]
    rw [angleDepth, List.foldl_cons, hfirst]
    exact ih h.2

/-! ### The last segment -/

/-- What follows the last dot outside of angle brackets, when there is such a
dot. -/
def afterOutsideDot? : (depth : Nat) → List Char → Option (List Char)
  | _, [] => none
  | depth, c :: cs =>
    match afterOutsideDot? (angleDepthAfter depth c) cs with
    | some rest => some rest
    | none => if c = '.' ∧ depth = 0 then some cs else none

/-- **The last segment** of a name: what follows the last dot outside of angle
brackets, and all of the name where there is none. -/
def lastSegment (cs : List Char) : List Char :=
  (afterOutsideDot? 0 cs).getD cs

/-- There is no dot outside of angle brackets when each dot has brackets open in
front of it. -/
theorem afterOutsideDot?_eq_none_iff {depth : Nat} {cs : List Char} :
    afterOutsideDot? depth cs = none ↔
      ∀ a b, cs = a ++ '.' :: b → angleDepth depth a ≠ 0 := by
  induction cs generalizing depth with
  | nil => simp [afterOutsideDot?]
  | cons c cs ih =>
    rw [afterOutsideDot?]
    constructor
    · intro hnone a b hab
      cases hlater : afterOutsideDot? (angleDepthAfter depth c) cs with
      | some rest => simp [hlater] at hnone
      | none =>
        rw [hlater] at hnone
        cases a with
        | nil =>
          obtain ⟨rfl, rfl⟩ := List.cons.inj hab
          rintro rfl
          simp at hnone
        | cons d a =>
          obtain ⟨rfl, rfl⟩ := List.cons.inj hab
          exact ih.mp hlater a b rfl
    · intro hall
      have hlater : afterOutsideDot? (angleDepthAfter depth c) cs = none :=
        ih.mpr fun a b hab => hall (c :: a) b (by rw [hab, List.cons_append])
      have hhere : ¬(c = '.' ∧ depth = 0) := by
        rintro ⟨rfl, hdepth⟩
        exact hall [] cs rfl hdepth
      rw [hlater]
      exact if_neg hhere

/-- **What is found** stands behind a dot outside of angle brackets, and holds
no further one. -/
theorem exists_of_afterOutsideDot? {depth : Nat} {cs rest : List Char}
    (h : afterOutsideDot? depth cs = some rest) :
    ∃ a, cs = a ++ '.' :: rest ∧ angleDepth depth a = 0 ∧ afterOutsideDot? 0 rest = none := by
  induction cs generalizing depth with
  | nil => cases h
  | cons c cs ih =>
    rw [afterOutsideDot?] at h
    cases hlater : afterOutsideDot? (angleDepthAfter depth c) cs with
    | some rest' =>
      rw [hlater] at h
      obtain rfl : rest' = rest := Option.some.inj h
      obtain ⟨a, rfl, hdepth, hnone⟩ := ih hlater
      exact ⟨c :: a, rfl, hdepth, hnone⟩
    | none =>
      rw [hlater] at h
      by_cases hhere : c = '.' ∧ depth = 0
      · obtain ⟨rfl, rfl⟩ := hhere
        obtain rfl : cs = rest := by simpa using h
        exact ⟨[], rfl, rfl, hlater⟩
      · rw [if_neg hhere] at h
        cases h

/-- **A search in two parts**: a dot in the second part is further back than any
in the first. -/
theorem afterOutsideDot?_append (depth : Nat) (cs cs' : List Char) :
    afterOutsideDot? depth (cs ++ cs') =
      (afterOutsideDot? (angleDepth depth cs) cs').or
        ((afterOutsideDot? depth cs).map (· ++ cs')) := by
  induction cs generalizing depth with
  | nil => simp [afterOutsideDot?, angleDepth]
  | cons c cs ih =>
    rw [List.cons_append, afterOutsideDot?, ih, afterOutsideDot?]
    have hdepth : angleDepth depth (c :: cs) = angleDepth (angleDepthAfter depth c) cs := rfl
    rw [hdepth]
    cases afterOutsideDot? (angleDepth (angleDepthAfter depth c) cs) cs' with
    | some rest => simp
    | none =>
      cases afterOutsideDot? (angleDepthAfter depth c) cs with
      | some rest => simp
      | none =>
        by_cases hhere : c = '.' ∧ depth = 0
        · simp [hhere]
        · simp [hhere]

/-- In a text without angle brackets the last segment follows the last dot. -/
theorem lastSegment_eq_afterLastDot {cs : List Char} (h : '<' ∉ cs) :
    lastSegment cs = afterLastDot cs := by
  rw [lastSegment]
  induction cs using List.reverseRecOn with
  | nil => rfl
  | append_singleton cs c ih =>
    rw [List.mem_append, not_or] at h
    rw [afterOutsideDot?_append, angleDepth_eq_zero h.1]
    by_cases hdot : c = '.'
    · subst hdot
      simp [afterOutsideDot?, afterLastDot_append]
    · have hlast : afterLastDot (cs ++ [c]) = afterLastDot cs ++ [c] := by
        simp [afterLastDot, hdot]
      rw [hlast, ← ih h.1]
      cases hcs : afterOutsideDot? 0 cs with
      | none => simp [afterOutsideDot?, hdot]
      | some rest => simp [afterOutsideDot?, hdot]

/-! ### The name of a reference -/

theorem toList_simpleName (name : String) :
    (simpleName name).toList =
      afterLastDot (cutGenerics name.toList).1 ++ (cutGenerics name.toList).2 := by
  rw [simpleName, String.toList_ofList]

/-- A name is cut in front of its first angle bracket. -/
theorem cutGenerics_spec {cs head generics : List Char} (h : cutGenerics cs = (head, generics)) :
    cs = head ++ generics ∧ '<' ∉ head := by
  obtain ⟨rfl, rfl⟩ := Prod.mk.inj h
  refine ⟨List.takeWhile_append_dropWhile.symm, fun hmem => ?_⟩
  simpa using List.mem_takeWhile_imp hmem

/-- **The simple name is the last segment** when no segment begins behind the
first angle bracket. -/
theorem simpleName_eq_lastSegment_iff (name : String) :
    (simpleName name).toList = lastSegment name.toList ↔
      afterOutsideDot? 0 (cutGenerics name.toList).2 = none := by
  obtain ⟨head, generics, hcut⟩ : ∃ head generics, cutGenerics name.toList = (head, generics) :=
    ⟨_, _, rfl⟩
  obtain ⟨hname, hhead⟩ := cutGenerics_spec hcut
  have hsearch : lastSegment name.toList =
      (afterOutsideDot? 0 generics).getD (afterLastDot head ++ generics) := by
    rw [← lastSegment_eq_afterLastDot hhead, lastSegment, lastSegment, hname,
      afterOutsideDot?_append, angleDepth_eq_zero hhead]
    cases afterOutsideDot? 0 generics with
    | some rest => rfl
    | none => cases afterOutsideDot? 0 head <;> rfl
  rw [toList_simpleName, hsearch, hcut]
  cases hgenerics : afterOutsideDot? 0 generics with
  | none => simp
  | some rest =>
    -- The segment that begins in the generic part is shorter than that part.
    obtain ⟨a, hsplit, -, -⟩ := exists_of_afterOutsideDot? hgenerics
    have hlonger : afterLastDot head ++ generics ≠ rest := fun heq => by
      have hlength := congrArg List.length heq
      rw [hsplit] at hlength
      simp only [List.length_append, List.length_cons] at hlength
      omega
    simpa using hlonger

end TypeRef

/-! ### Names with an alias -/

/-- What is behind an alias is left without it. -/
theorem unaliased_globalAlias_append (name : String) : unaliased (globalAlias ++ name) = name := by
  simp [unaliased, Text.after?]

/-- A name ends in what is left of it without the alias. -/
theorem exists_eq_append_unaliased (name : String) : ∃ front, name = front ++ unaliased name := by
  rw [unaliased, Text.after?]
  cases hafter : Text.afterStart? globalAlias.toList name.toList with
  | none => exact ⟨"", by simp⟩
  | some rest =>
    refine ⟨globalAlias, String.toList_inj.mp ?_⟩
    simpa using Text.eq_append_of_afterStart? hafter

/-- There is nothing to trim off an alias and a name that does not end in a
blank. -/
theorem trim_globalAlias_append {name : String}
    (h : ∀ c ∈ name.toList.getLast?, Text.isBlank c = false) :
    Text.trim (globalAlias ++ name) = globalAlias ++ name := by
  have hfirst : globalAlias.toList = 'g' :: "lobal::".toList := by decide
  have hcolon : globalAlias.toList.getLast? = some ':' := by decide
  refine Text.trim_eq_self_of_ends ?_ ?_
  · rw [String.toList_append, hfirst]
    simp only [List.cons_append, List.head?_cons, Option.mem_some_iff]
    rintro c rfl
    decide
  · intro c hc
    rw [String.toList_append, List.getLast?_append, hcolon] at hc
    cases hlast : name.toList.getLast? with
    | none =>
      obtain rfl : ':' = c := by simpa [hlast] using hc
      decide
    | some d =>
      obtain rfl : d = c := by simpa [hlast] using hc
      exact h d hlast

/-- What is left of a trimmed name does not end in a blank. -/
theorem isBlank_getLast?_unaliased_trim (name : String) :
    ∀ c ∈ (unaliased (Text.trim name)).toList.getLast?, Text.isBlank c = false := by
  intro c hc
  obtain ⟨front, hfront⟩ := exists_eq_append_unaliased (Text.trim name)
  have hlast : c ∈ (Text.trim name).toList.getLast? := by
    rw [hfront, String.toList_append, List.getLast?_append, Option.mem_def.mp hc]
    rfl
  rw [Text.trim, String.toList_ofList, Text.trimChars] at hlast
  exact Text.isBlank_getLast?_dropBlankEnd c hlast

namespace TypeRef

/-- **A reference is named by the last segment of its qualified name** exactly
when behind the first angle bracket there is no dot outside of brackets.
Whatever it is named by, the reference that is made again from its qualified
name has the same name and the same qualified name. -/
theorem name_ofName_eq_lastSegment_iff (name : String) (kind kind' : TypeKind) :
    let bare := unaliased (Text.trim name)
    let t := ofName name kind
    (t.name.toList = lastSegment bare.toList ↔
      ∀ a b, (cutGenerics bare.toList).2 = a ++ '.' :: b → angleDepth 0 a ≠ 0) ∧
    t.qualifiedName = globalAlias ++ bare ∧
    (ofName t.qualifiedName kind').name = t.name ∧
    (ofName t.qualifiedName kind').qualifiedName = t.qualifiedName := by
  intro bare t
  have hagain : unaliased (Text.trim t.qualifiedName) = bare := by
    show unaliased (Text.trim (globalAlias ++ bare)) = bare
    rw [trim_globalAlias_append (isBlank_getLast?_unaliased_trim name),
      unaliased_globalAlias_append]
  refine ⟨?_, rfl, ?_, ?_⟩
  · rw [← afterOutsideDot?_eq_none_iff]
    exact simpleName_eq_lastSegment_iff bare
  · show simpleName (unaliased (Text.trim t.qualifiedName)) = simpleName bare
    rw [hagain]
  · show globalAlias ++ unaliased (Text.trim t.qualifiedName) = globalAlias ++ bare
    rw [hagain]

/-- **A reference that is not named by its last segment**: the type stands
inside of a generic one. -/
theorem name_ofName_ne_lastSegment :
    let cursor := "Shop.Page<int>.Cursor"
    (ofName cursor .classType).name = "Page<int>.Cursor" ∧
      lastSegment cursor.toList = "Cursor".toList ∧
      (ofName cursor .classType).name.toList ≠
        lastSegment (unaliased (Text.trim cursor)).toList := by
  decide +kernel

end TypeRef

end SharpSource
