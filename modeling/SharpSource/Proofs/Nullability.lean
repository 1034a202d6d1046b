import SharpSource.Proofs.Identities
import SharpSource.Proofs.TypeSplits

/-!
# Which types of members can be null

Whether a member can be null is decided in four places. The suffix is split off
the type, the base is looked up among the keywords and then among the entries,
the kind of an entry says whether its instances are values, and the suffix may
turn a value into a nullable one or the whole type into an array. The verdict
itself reads two fields of the reference that comes out, and knows nothing of
all this.

For the source there are two questions only: whether the type carries a mark,
and whether what it is without blanks stands for a value. So the first half is
about texts. A type **carries** marks when it ends in a spelling of them
(`TypeSuffix.Carries`), and the suffix that is split off is the longest such
ending: it is carried itself (`TypeSuffix.exists_carries_split`), and it ends in
all that the type carries (`TypeSuffix.Carries.isSuffix`). The second half is
about references. A suffix makes any of them one that can be null
(`TypeRef.canBeNull_withSuffix`), and a base without one cannot be null when it
is a keyword for values, or an entry whose kind is one of values
(`Manifest.canBeNull_resolveBase_iff`).
-/

namespace SharpSource

open TypeSuffix (Mark)

/-! ### Types that carry marks -/

namespace TypeSuffix

variable {type : String} {marks : List Mark}

/-- **A type carries marks** when it ends in a spelling of them. What stands in
front may end in marks too, so a type carries all endings of the marks that it
has, and no mark at all in any case. -/
def Carries (type : String) (marks : List Mark) : Prop :=
  ∃ base suffix, type.toList = base ++ suffix ∧ Spells marks suffix

/-- Blanks in front of a type are no matter for its marks. -/
theorem carries_dropFront_iff :
    Carries (String.ofList (type.toList.dropWhile Text.isBlank)) marks ↔ Carries type marks := by
  rw [Carries, Carries, String.toList_ofList]
  constructor
  · rintro ⟨base, suffix, htype, hspells⟩
    refine ⟨type.toList.takeWhile Text.isBlank ++ base, suffix, ?_, hspells⟩
    rw [List.append_assoc, ← htype, List.takeWhile_append_dropWhile]
  · rintro ⟨base, suffix, htype, hspells⟩
    rw [htype, List.dropWhile_append]
    split
    · -- The whole base is blank, and blanks may be missing at the front of the suffix as well.
      have hfront : (suffix.takeWhile Text.isBlank).filter (!Text.isBlank ·) = [] :=
        filter_blanks fun c hc => List.mem_takeWhile_imp hc
      have hfilter := congrArg (List.filter (!Text.isBlank ·))
        (List.takeWhile_append_dropWhile (p := Text.isBlank) (l := suffix))
      rw [List.filter_append, hfront, List.nil_append] at hfilter
      exact ⟨[], suffix.dropWhile Text.isBlank, rfl, hfilter.trans hspells⟩
    · exact ⟨_, suffix, rfl, hspells⟩

/-- **The suffix that is split off is carried.** -/
theorem exists_carries_split (type : String) :
    ∃ marks, Carries type marks ∧ (split (Text.trim type)).2.toList = marks.flatMap Mark.chars := by
  obtain ⟨marks, taken, hcs, hspells, -⟩ :=
    exists_scans_strip (type.toList.dropWhile Text.isBlank).reverse
  have htype : type.toList.dropWhile Text.isBlank =
      (strip (type.toList.dropWhile Text.isBlank).reverse).reverse ++ taken.reverse := by
    rw [← List.reverse_append, ← hcs, List.reverse_reverse]
  refine ⟨marks, carries_dropFront_iff.mp ?_, ?_⟩
  · rw [Carries, String.toList_ofList]
    exact ⟨_, taken.reverse, htype, hspells⟩
  · rw [split_trim, toList_suffix_split htype, hspells]

/-- **The suffix that is split off ends in all that the type carries.** -/
theorem Carries.isSuffix (h : Carries type marks) :
    marks.flatMap Mark.chars <:+ (split (Text.trim type)).2.toList := by
  obtain ⟨base, suffix, htype, hspells⟩ := carries_dropFront_iff.mpr h
  rw [String.toList_ofList] at htype
  obtain ⟨blanks, more, rfl, hblanks, hstrip⟩ := hspells.exists_strip
  -- Taking off ends in the blanks in front of these marks, if not before.
  have hstart : (strip (base ++ (blanks ++ more)).reverse).reverse.length ≤
      (base ++ blanks).length := by
    rw [List.reverse_append, hstrip, List.length_reverse]
    have hlength := length_strip_le (blanks.reverse ++ base.reverse)
    simp only [List.length_append, List.length_reverse] at hlength ⊢
    omega
  have hmarks : more.filter (!Text.isBlank ·) = marks.flatMap Mark.chars := by
    rw [← hspells, List.filter_append, filter_blanks hblanks, List.nil_append]
  rw [split_trim, htype, split, String.toList_ofList, String.toList_ofList, ← List.append_assoc,
    List.drop_append_of_le_length (by rwa [List.append_assoc]), List.filter_append, hmarks]
  exact List.suffix_append ..

theorem Mark.chars_ne_nil (m : Mark) : m.chars ≠ [] := by
  cases m <;> simp [chars]

theorem Mark.bracket_mem_chars_iff (m : Mark) : '[' ∈ m.chars ↔ ∃ commas, m = .array commas := by
  cases m with
  | nullable => simp [chars]
  | array commas => simp [chars]

/-- **A type has no suffix** when it carries no mark. -/
theorem suffix_eq_empty_iff :
    (split (Text.trim type)).2 = "" ↔ ∀ marks, Carries type marks → marks = [] := by
  have hnil : ∀ marks : List Mark, marks.flatMap Mark.chars = [] → marks = [] := fun marks h =>
    List.eq_nil_iff_forall_not_mem.mpr fun m hm =>
      m.chars_ne_nil (List.flatMap_eq_nil_iff.mp h m hm)
  constructor
  · intro hempty marks h
    have hsuffix := h.isSuffix
    rw [hempty] at hsuffix
    exact hnil marks (List.suffix_nil.mp hsuffix)
  · intro h
    obtain ⟨marks, hcarries, hsuffix⟩ := exists_carries_split type
    rw [h marks hcarries] at hsuffix
    exact String.toList_eq_nil_iff.mp hsuffix

/-- **There is a bracket in the suffix** of a type that carries the brackets of
an array. -/
theorem bracket_mem_suffix_iff :
    '[' ∈ (split (Text.trim type)).2.toList ↔
      ∃ marks, Carries type marks ∧ ∃ commas, Mark.array commas ∈ marks := by
  have hbracket : ∀ marks : List Mark, '[' ∈ marks.flatMap Mark.chars ↔
      ∃ commas, Mark.array commas ∈ marks := fun marks => by
    simp only [List.mem_flatMap, Mark.bracket_mem_chars_iff]
    constructor
    · rintro ⟨_, hm, commas, rfl⟩
      exact ⟨commas, hm⟩
    · rintro ⟨commas, hm⟩
      exact ⟨_, hm, commas, rfl⟩
  constructor
  · intro h
    obtain ⟨marks, hcarries, hsuffix⟩ := exists_carries_split type
    exact ⟨marks, hcarries, (hbracket marks).mp (hsuffix ▸ h)⟩
  · rintro ⟨marks, hcarries, harray⟩
    exact hcarries.isSuffix.mem ((hbracket marks).mpr harray)

/-- **A type without a suffix** is its own base, but for the blanks around
it. -/
theorem base_eq_trim_of_suffix (h : (split (Text.trim type)).2 = "") :
    (split (Text.trim type)).1 = Text.trim type := by
  obtain ⟨marks, taken, hcs, -, -⟩ := exists_scans_strip (Text.trim type).toList.reverse
  have htype : (Text.trim type).toList =
      (strip (Text.trim type).toList.reverse).reverse ++ taken.reverse := by
    rw [← List.reverse_append, ← hcs, List.reverse_reverse]
  have hsuffix := toList_suffix_split htype
  rw [String.ofList_toList, h] at hsuffix
  have hblank : ∀ c ∈ taken.reverse, Text.isBlank c = true := fun c hc => by
    simpa using List.filter_eq_nil_iff.mp hsuffix.symm c hc
  have hlast := (Text.ends_of_trim_eq_self (Text.trim_trim type)).2
  rw [split, ← Text.dropBlankEnd_append_blanks hblank, ← htype, Text.dropBlankEnd_eq_self hlast,
    String.ofList_toList]

end TypeSuffix

/-! ### References that can be null -/

namespace TypeRef

/-- **A suffix makes a reference one that can be null**, whatever it was. -/
theorem canBeNull_withSuffix (t : TypeRef) {s : String}
    (hblank : ∀ c ∈ s.toList, Text.isBlank c = false) (hs : s ≠ "") :
    (t.withSuffix s).canBeNull = true := by
  rw [withSuffix_eq t hblank hs, canBeNull]
  by_cases hbracket : '[' ∈ s.toList
  · simp only [if_pos hbracket, Bool.not_false, Bool.true_or]
  · cases hvalue : t.isValue with
    | true => simp [hbracket]
    | false => simp [hbracket]

/-- Of the keywords, two stand for types that can be null. -/
theorem canBeNull_ofKeyword? {text : String} {t : TypeRef} (h : ofKeyword? text = some t) :
    t.kind ≠ .arrayType ∧ (t.canBeNull = true ↔ text = "object" ∨ text = "string") := by
  have hkeywords : ∀ keyword ∈ SpecialType.keywordTable.map (·.2.1), ∀ t ∈ ofKeyword? keyword,
      t.kind ≠ .arrayType ∧
        (t.canBeNull = true ↔ keyword = "object" ∨ keyword = "string") := by
    decide +kernel
  exact hkeywords text (mem_of_ofKeyword? h) t h

theorem exists_ofKeyword?_of_mem {text : String} (h : text ∈ SpecialType.keywordTable.map (·.2.1)) :
    ∃ t, ofKeyword? text = some t := by
  have hkeywords : ∀ keyword ∈ SpecialType.keywordTable.map (·.2.1),
      (ofKeyword? keyword).isSome := by
    decide +kernel
  exact Option.isSome_iff_exists.mp (hkeywords text h)

/-- A type that is only named can be null when its kind is not one of values. -/
theorem canBeNull_ofName (name : String) (kind : TypeKind) :
    (ofName name kind).canBeNull = !kind.isValue :=
  Bool.or_false _

end TypeRef

/-! ### Members -/

namespace Manifest

variable {m : Manifest}

/-- A text **names values** when it is a keyword for values, or the name of a
struct or of an enum in the manifest. -/
def NamesValues (m : Manifest) (text : String) : Prop :=
  (text ∈ SpecialType.keywordTable.map (·.2.1) ∧ text ≠ "object" ∧ text ≠ "string") ∨
    ∃ e ∈ m.types, e.Answers text ∧ (e.typeKind = .structType ∨ e.typeKind = .enumType)

/-- Of the kinds that can be declared, two are kinds of values. -/
theorem isValue_iff_of_isDeclarable {kind : TypeKind} {record : Bool}
    (h : kind.IsDeclarable record) :
    kind ≠ .arrayType ∧ (kind.isValue = true ↔ kind = .structType ∨ kind = .enumType) := by
  rcases h.1 with rfl | rfl | rfl | rfl <;> decide

/-- What is no keyword names values only when it is the name of a struct or of
an enum. -/
theorem namesValues_iff {text : String} (hkeyword : TypeRef.ofKeyword? text = none) :
    m.NamesValues text ↔
      ∃ e ∈ m.types, e.Answers text ∧ (e.typeKind = .structType ∨ e.typeKind = .enumType) := by
  refine or_iff_right fun h => ?_
  obtain ⟨t, ht⟩ := TypeRef.exists_ofKeyword?_of_mem h.1
  rw [hkeyword] at ht
  cases ht

/-- A keyword stands for no array, and it can be null unless it names values. -/
theorem canBeNull_resolveBase_keyword (hm : m.WellFormed) {text : String} {t : TypeRef}
    (hkeyword : TypeRef.ofKeyword? text = some t) :
    (m.resolveBase text).kind ≠ .arrayType ∧
      ((m.resolveBase text).canBeNull = false ↔ m.NamesValues text) := by
  -- An entry does not answer to a keyword.
  have hentry : ∀ e ∈ m.types, ¬e.Answers text := fun e he hanswers => by
    rw [(hm.entries e he).ofKeyword?_eq_none hanswers] at hkeyword
    cases hkeyword
  obtain ⟨hkind, hnull⟩ := TypeRef.canBeNull_ofKeyword? hkeyword
  have hresolve : m.resolveBase text = t := by rw [resolveBase, hkeyword]
  rw [hresolve, ← Bool.not_eq_true, hnull, not_or]
  refine ⟨hkind, fun h => Or.inl ⟨TypeRef.mem_of_ofKeyword? hkeyword, h⟩, ?_⟩
  rintro (⟨-, h⟩ | ⟨e, he, hanswers, -⟩)
  · exact h
  · exact absurd hanswers (hentry e he)

/-- The name of an entry stands for no array, and it can be null unless it names
values. -/
theorem canBeNull_resolveBase_entry (hm : m.WellFormed) {text : String} {e : TypeEntry}
    (he : e ∈ m.types) (hanswers : e.Answers text) :
    (m.resolveBase text).kind ≠ .arrayType ∧
      ((m.resolveBase text).canBeNull = false ↔ m.NamesValues text) := by
  obtain ⟨hkind, hvalue⟩ := isValue_iff_of_isDeclarable (hm.entries e he).kind
  have hresolve : m.resolveBase text = .ofName e.fullName e.typeKind :=
    (resolveBase_of_answers hm he hanswers).2.trans e.toRef_eq
  rw [namesValues_iff ((hm.entries e he).ofKeyword?_eq_none hanswers), hresolve,
    TypeRef.canBeNull_ofName, Bool.not_eq_false']
  refine ⟨hkind, fun h => ⟨e, he, hanswers, hvalue.mp h⟩, ?_⟩
  rintro ⟨e', he', hanswers', h⟩
  -- Only one entry answers.
  obtain rfl : e = e' := eq_of_answers hm.named he he' hanswers hanswers'
  exact hvalue.mpr h

/-- Any other name stands for a class. -/
theorem resolveBase_of_unknown {text : String} (hkeyword : TypeRef.ofKeyword? text = none)
    (hfind : m.findType? text = none) :
    (m.resolveBase text).kind = .classType ∧ (m.resolveBase text).canBeNull = true := by
  rw [resolveBase, hkeyword, hfind]
  by_cases hqualified : isQualified text
  · simp only [if_pos hqualified]
    exact ⟨rfl, rfl⟩
  · simp only [if_neg hqualified]
    exact ⟨rfl, rfl⟩

/-- **A base** stands for no array, and it can be null unless it names
values. -/
theorem canBeNull_resolveBase_iff (hm : m.WellFormed) (text : String) :
    (m.resolveBase text).kind ≠ .arrayType ∧
      ((m.resolveBase text).canBeNull = false ↔ m.NamesValues text) := by
  cases hkeyword : TypeRef.ofKeyword? text with
  | some t => exact canBeNull_resolveBase_keyword hm hkeyword
  | none =>
    cases hfind : m.findType? text with
    | some e =>
      obtain ⟨he, hanswers⟩ := (findType?_eq_some_iff hm.named).mp hfind
      exact canBeNull_resolveBase_entry hm he hanswers
    | none =>
      obtain ⟨hkind, hnull⟩ := resolveBase_of_unknown hkeyword hfind
      rw [namesValues_iff hkeyword, hkind, hnull]
      refine ⟨by decide, fun h => absurd h (by decide), ?_⟩
      rintro ⟨e, he, hanswers, -⟩
      rw [(findType?_eq_some_iff hm.named).mpr ⟨he, hanswers⟩] at hfind
      cases hfind

/-- A type stands for its base with its suffix. -/
theorem resolve_eq (m : Manifest) (type : String) :
    m.resolve type = (m.resolveBase (TypeSuffix.split (Text.trim type)).1).withSuffix
      (TypeSuffix.split (Text.trim type)).2 := rfl

/-- **Which types can be null.** In a manifest that passes, the reference that a
type stands for cannot be null exactly when the type carries no mark and names
values: it is a keyword other than `object` and `string`, or the name of a
struct or of an enum, with blanks around it or without. So a type that carries
marks can be null, however many there are and whatever they stand behind. It is
an array exactly when one of these marks is a pair of brackets, and no array is
a value. -/
theorem canBeNull_resolve_iff {source file : String} (hvalid : m.validate source file = .ok ())
    (type : String) :
    ((m.resolve type).canBeNull = false ↔
      (∀ marks, TypeSuffix.Carries type marks → marks = []) ∧ m.NamesValues (Text.trim type)) ∧
    (∀ marks, TypeSuffix.Carries type marks → marks ≠ [] → (m.resolve type).canBeNull = true) ∧
    ((m.resolve type).kind = .arrayType ↔
      ∃ marks, TypeSuffix.Carries type marks ∧ ∃ commas, Mark.array commas ∈ marks) ∧
    ((m.resolve type).kind = .arrayType → (m.resolve type).isValue = false) := by
  obtain ⟨hm, -⟩ := validate_ok_iff.mp hvalid
  rw [← TypeSuffix.suffix_eq_empty_iff, ← TypeSuffix.bracket_mem_suffix_iff]
  -- Without a suffix it is the base that decides, and with one no value is left.
  by_cases hsuffix : (TypeSuffix.split (Text.trim type)).2 = ""
  · have hresolve : m.resolve type = m.resolveBase (Text.trim type) := by
      rw [resolve_eq, hsuffix, TypeRef.withSuffix_empty, TypeSuffix.base_eq_trim_of_suffix hsuffix]
    obtain ⟨hkind, hnull⟩ := canBeNull_resolveBase_iff hm (Text.trim type)
    rw [hresolve, hnull, hsuffix]
    refine ⟨by simp, fun marks h hmarks => ?_, by simpa using hkind, fun h => absurd h hkind⟩
    exact absurd (TypeSuffix.suffix_eq_empty_iff.mp hsuffix marks h) hmarks
  · have hblank : ∀ c ∈ (TypeSuffix.split (Text.trim type)).2.toList, Text.isBlank c = false :=
      fun c hc => isBlank_of_mem_suffix hc
    have hnull : (m.resolve type).canBeNull = true := by
      rw [resolve_eq]
      exact TypeRef.canBeNull_withSuffix _ hblank hsuffix
    obtain ⟨hkind, -⟩ := canBeNull_resolveBase_iff hm (TypeSuffix.split (Text.trim type)).1
    rw [hnull]
    refine ⟨⟨fun h => Bool.noConfusion h, fun h => absurd h.1 hsuffix⟩, fun _ _ _ => rfl, ?_⟩
    rw [resolve_eq, TypeRef.withSuffix_eq _ hblank hsuffix]
    by_cases hbracket : '[' ∈ (TypeSuffix.split (Text.trim type)).2.toList
    · simp [hbracket]
    · simp [hbracket, hkind]

/-- A struct by its full name with blanks around it, and an array of two
dimensions of it behind which there is a question mark. -/
theorem canBeNull_resolve_iff_struct :
    let price : TypeEntry := { name := "Price", ns := some "Shop", kind := some .structType }
    let m : Manifest := { types := [{ name := "Order" }, price] }
    m.validate "" "shop.toml" = .ok () ∧ (m.resolve " Shop.Price ").canBeNull = false ∧
      TypeSuffix.Carries "Price [ , ] ?" [.array 1, .nullable] ∧
      (m.resolve "Price [ , ] ?").canBeNull = true ∧
      (m.resolve "Price [ , ] ?").isValue = false := by
  intro price m
  have hvalid : m.validate "" "shop.toml" = .ok () := by decide +kernel
  have hplain : ∀ marks, TypeSuffix.Carries " Shop.Price " marks → marks = [] :=
    TypeSuffix.suffix_eq_empty_iff.mp (by decide +kernel)
  have hnames : m.NamesValues (Text.trim " Shop.Price ") :=
    Or.inr ⟨price, by decide +kernel, by decide +kernel, Or.inl rfl⟩
  have hcarries : TypeSuffix.Carries "Price [ , ] ?" [.array 1, .nullable] :=
    ⟨"Price".toList, " [ , ] ?".toList, by decide +kernel, by decide +kernel⟩
  obtain ⟨hvalue, -⟩ := canBeNull_resolve_iff hvalid " Shop.Price "
  obtain ⟨-, hnull, harray, hreference⟩ := canBeNull_resolve_iff hvalid "Price [ , ] ?"
  have hkind := harray.mpr ⟨_, hcarries, 1, List.mem_cons_self ..⟩
  exact ⟨hvalid, hvalue.mpr ⟨hplain, hnames⟩, hcarries, hnull _ hcarries (List.cons_ne_nil _ _),
    hreference hkind⟩

end Manifest

end SharpSource
