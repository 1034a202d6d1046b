import SharpSource.Proofs.RootedNames
import SharpSource.Proofs.Suffixes

/-!
# Tuple types

A tuple type is no name. It is no keyword and no entry answers to it, so it gets
as far as the last question that is asked about the base of a type: whether it
has a namespace in front. The question is answered by looking for a dot before
the first angle bracket, and a component of a tuple may well have one.

So a tuple is written as it stands as long as no dot comes before its first
angle bracket; and with such a dot the whole tuple is taken for the qualified
name of a type, and gets the alias of the root in front of its parenthesis
(`Manifest.sourceName_resolve_tuple_iff`). Suffixes do not matter for that: the
marks are split off behind the closing parenthesis, whatever blanks they are
written with (`TypeSuffix.split_spelled`), and are put back without blanks.
-/

namespace SharpSource

open TypeSuffix (Mark Spells)

/-- **A tuple type**: its components in parentheses. Components are any texts,
so tuples may stand in tuples. -/
def tupleText (components : List String) : String :=
  "(" ++ ", ".intercalate components ++ ")"

/-! ### A parenthesis in front -/

section Parenthesis

variable {text : String}

theorem head?_tupleText (components : List String) :
    (tupleText components).toList.head? = some '(' := by
  simp [tupleText]

theorem getLast?_tupleText (components : List String) :
    (tupleText components).toList.getLast? = some ')' := by
  rw [tupleText, String.toList_append]
  exact List.getLast?_concat

/-- What starts with a parenthesis has no alias in front. -/
theorem startsWith_globalAlias_of_head? (h : text.toList.head? = some '(') :
    Text.startsWith globalAlias text = false := by
  rw [Bool.eq_false_iff, Ne, Text.startsWith_iff]
  rintro ⟨rest, hrest⟩
  rw [← hrest] at h
  cases h

theorem unaliased_of_head? (h : text.toList.head? = some '(') : unaliased text = text := by
  have hnone := startsWith_globalAlias_of_head? h
  rw [Text.startsWith, Option.isSome_eq_false_iff, Option.isNone_iff_eq_none] at hnone
  rw [unaliased, Text.after?, hnone]
  rfl

/-- What starts with a parenthesis is no keyword. -/
theorem TypeRef.ofKeyword?_of_head? (h : text.toList.head? = some '(') :
    TypeRef.ofKeyword? text = none := by
  have hkeywords : ∀ keyword ∈ SpecialType.keywordTable.map (·.2.1),
      keyword.toList.head? ≠ some '(' := by
    decide +kernel
  rw [Option.eq_none_iff_forall_ne_some]
  exact fun t ht => hkeywords text (mem_of_ofKeyword? ht) h

/-- No entry answers to what starts with a parenthesis. -/
theorem Manifest.findType?_of_head? {m : Manifest} (hnamed : m.Named)
    (h : text.toList.head? = some '(') : m.findType? text = none := by
  have hparenthesis : ∀ c, c = '.' ∨ Identifier.isContinue c = true → c ≠ '(' := by
    rintro c hc rfl
    exact absurd hc (by decide)
  have hmem : '(' ∈ text.toList := List.mem_of_head? h
  rw [Option.eq_none_iff_forall_ne_some]
  intro e hfind
  obtain ⟨he, hanswers⟩ := (findType?_eq_some_iff hnamed).mp hfind
  have hentry := hnamed.entries e he
  rw [TypeEntry.Answers, unaliased_of_head? h] at hanswers
  rcases hanswers with hsimple | hfull
  · exact hparenthesis '(' (Or.inr (hentry.name _ (hsimple ▸ hmem))) rfl
  · exact hparenthesis '(' (hentry.isContinue_fullName _ (hfull ▸ hmem)) rfl

end Parenthesis

/-! ### Splitting and resolving -/

/-- **A tuple and the marks behind it are split from each other**, whatever
blanks there are. -/
theorem TypeSuffix.split_tuple {before suffix : String} {components : List String}
    {marks : List Mark} (hbefore : Text.isBlankText before = true)
    (hsuffix : Spells marks suffix.toList) :
    split (Text.trim (before ++ tupleText components ++ suffix)) =
      (tupleText components, String.join (marks.map Mark.text)) := by
  have hparenthesis : Text.isBlank ')' = false := by decide
  obtain ⟨inner, hinner⟩ := List.getLast?_eq_some_iff.mp (getLast?_tupleText components)
  obtain ⟨rest, hrest⟩ := List.head?_eq_some_iff.mp (head?_tupleText components)
  -- A tuple ends in a parenthesis, which is no mark, and starts with one, which is no blank.
  have hbase : stripMark? (tupleText components).toList.reverse = none := by
    rw [hinner, List.reverse_append, List.reverse_singleton, List.singleton_append, stripMark?,
      List.dropWhile_cons_of_neg (by simp [hparenthesis])]
    rfl
  have hend : ∀ c ∈ (tupleText components).toList.getLast?, Text.isBlank c = false := by
    intro c hc
    rw [getLast?_tupleText, Option.mem_some_iff] at hc
    rw [← hc, hparenthesis]
  have hfront : (before ++ tupleText components ++ suffix).toList.dropWhile Text.isBlank =
      (tupleText components ++ suffix).toList := by
    rw [Text.isBlankText, List.all_eq_true] at hbefore
    rw [String.append_assoc, String.toList_append, List.dropWhile_append_of_pos hbefore,
      String.toList_append, hrest, List.cons_append, List.dropWhile_cons_of_neg (by decide)]
  rw [split_trim, hfront, String.ofList_toList, split_spelled hbase hend hsuffix]

namespace Manifest

variable {m : Manifest} {components : List String}

/-- **What a tuple stands for** is settled by the dots before its first angle
bracket. -/
theorem sourceName_resolveBase_tuple (hnamed : m.Named) :
    (m.resolveBase (tupleText components)).sourceName =
      if '.' ∈ (TypeRef.cutGenerics (tupleText components).toList).1
      then globalAlias ++ tupleText components else tupleText components := by
  have hhead := head?_tupleText components
  have hparentheses : Text.isBlank '(' = false ∧ Text.isBlank ')' = false := by decide
  have htrim : Text.trim (tupleText components) = tupleText components := by
    refine Text.trim_eq_self_of_ends (fun c hc => ?_) fun c hc => ?_
    · rw [hhead, Option.mem_some_iff] at hc
      rw [← hc, hparentheses.1]
    · rw [getLast?_tupleText, Option.mem_some_iff] at hc
      rw [← hc, hparentheses.2]
  have hqualified : isQualified (tupleText components) = true ↔
      '.' ∈ (TypeRef.cutGenerics (tupleText components).toList).1 := by
    rw [isQualified, startsWith_globalAlias_of_head? hhead, Bool.false_or, decide_eq_true_iff]
  rw [resolveBase, TypeRef.ofKeyword?_of_head? hhead, findType?_of_head? hnamed hhead]
  by_cases hdot : '.' ∈ (TypeRef.cutGenerics (tupleText components).toList).1
  · simp only [if_pos hdot, if_pos (hqualified.mpr hdot)]
    show globalAlias ++ unaliased (Text.trim (tupleText components)) = _
    rw [htrim, unaliased_of_head? hhead]
  · simp only [if_neg hdot, if_neg (mt hqualified.mp hdot)]
    exact htrim

/-- **A tuple type is written as it stands** exactly when no dot comes before
its first angle bracket. In a manifest that passes, a type that consists of a
tuple and of marks, with blanks wherever there may be any, is then written as
the tuple and the marks; and else it is written with the alias of the root in
front of all that. -/
theorem sourceName_resolve_tuple_iff {source file before suffix : String} {marks : List Mark}
    (hvalid : m.validate source file = .ok ()) (hbefore : Text.isBlankText before = true)
    (hsuffix : Spells marks suffix.toList) :
    let written := tupleText components ++ String.join (marks.map Mark.text)
    let resolved := m.resolve (before ++ tupleText components ++ suffix)
    (resolved.sourceName = written ↔
      '.' ∉ (TypeRef.cutGenerics (tupleText components).toList).1) ∧
    (Text.startsWith globalAlias resolved.sourceName = true ↔
      '.' ∈ (TypeRef.cutGenerics (tupleText components).toList).1) ∧
    ('.' ∈ (TypeRef.cutGenerics (tupleText components).toList).1 →
      resolved.sourceName = globalAlias ++ written) := by
  intro written resolved
  have hmarks :
      Text.trim (String.join (marks.map Mark.text)) = String.join (marks.map Mark.text) := by
    refine Text.trim_eq_self fun c hc => ?_
    rw [String.toList_join, List.mem_flatMap] at hc
    obtain ⟨text, htext, hc⟩ := hc
    obtain ⟨mark, -, rfl⟩ := List.mem_map.mp htext
    exact mark.isBlank_of_mem c (by simpa [Mark.text] using hc)
  have hresolved : resolved.sourceName =
      (m.resolveBase (tupleText components)).sourceName ++ String.join (marks.map Mark.text) := by
    show (m.resolve _).sourceName = _
    rw [resolve, TypeSuffix.split_tuple hbefore hsuffix]
    exact (TypeRef.sourceName_withSuffix _ _).trans (by rw [hmarks])
  have hplain : Text.startsWith globalAlias written = false := by
    refine startsWith_globalAlias_of_head? ?_
    rw [String.toList_append, List.head?_append, head?_tupleText]
    rfl
  have halias := Text.startsWith_append globalAlias written
  rw [hresolved, sourceName_resolveBase_tuple (named_of_validate hvalid)]
  by_cases hdot : '.' ∈ (TypeRef.cutGenerics (tupleText components).toList).1
  · have hlonger : globalAlias ++ written ≠ written := fun heq => by
      rw [heq, hplain] at halias
      cases halias
    rw [if_pos hdot, String.append_assoc]
    exact ⟨iff_of_false hlonger (not_not.mpr hdot), iff_of_true halias hdot, fun _ => rfl⟩
  · rw [if_neg hdot]
    exact ⟨iff_of_true rfl hdot, iff_of_false (Bool.eq_false_iff.mp hplain) hdot,
      fun h => absurd h hdot⟩

/-- The dots of a tuple may stand in generic arguments, and a tuple in the
tuple. -/
theorem sourceName_resolve_tuple_iff_generic :
    let components := ["int", "List<System.DateTime>?", tupleText ["Line", "Demo.Point"]]
    let m : Manifest := { types := [{ name := "Line", ns := some "Shop" }] }
    m.validate "" "shop.toml" = .ok () ∧
      (m.resolve (" " ++ tupleText components ++ " [ , ] ? ")).sourceName =
        "(int, List<System.DateTime>?, (Line, Demo.Point))[,]?" := by
  intro components m
  have hvalid : m.validate "" "shop.toml" = .ok () := by decide +kernel
  have hwritten := (@sourceName_resolve_tuple_iff m components "" "shop.toml" " " " [ , ] ? "
    [.array 1, .nullable] hvalid (by decide +kernel) (by decide +kernel)).1.mpr (by decide +kernel)
  exact ⟨hvalid, hwritten.trans (by decide +kernel)⟩

/-- **A tuple that is taken for a name**: its first component has a
namespace. -/
theorem sourceName_resolve_ne_tuple :
    let member : MemberEntry := { name := "Span", type := "(System.DateTime, int)?" }
    let m : Manifest := { types := [
      { name := "Order", ns := some "Shop", modifiers := [.partialType], members := [member] }] }
    m.validate "" "shop.toml" = .ok () ∧
      member.type = tupleText ["System.DateTime", "int"] ++ Mark.nullable.text ∧
      (m.resolve member.type).sourceName = "global::(System.DateTime, int)?" ∧
      (m.resolve member.type).sourceName ≠ member.type := by
  decide +kernel

end Manifest

end SharpSource
