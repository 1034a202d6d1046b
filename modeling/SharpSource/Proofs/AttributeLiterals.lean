import SharpSource.FileEmitter
import SharpSource.Proofs.AttributeSections

/-!
# Literals in an attribute

The arguments of an attribute hold literals, and in a literal a bracket is a
character like any other. The language has three kinds of literals in which
brackets may stand: string literals, in which a backslash hides the character
behind it, verbatim ones with an at sign in front, in which it does not, and
characters. `Attribute.Code` is what an attribute may hold between its brackets
when all three are known.

Sections are read with literals of the first kind alone. So an attribute in
brackets loses them exactly when they match for such a reader
(`Attribute.normalize_bracketed_iff`), and the literals of the other two kinds
decide whether they do. They may hold most of what they like. What they must
not hold is a backslash before a quote of a verbatim literal, and a quote or a
bracket as a character (`Attribute.Code.content`).

That brackets are not lost in any other way is a matter of counting: what is
taken out of brackets has at least two characters less that are not blank, and
so it cannot be what stood between the outermost ones unless there is one pair
of them (`Attribute.Sections.solid_add_le`).
-/

namespace SharpSource.Attribute

open Text (solid)

variable {cs : List Char} {ws : List (List Char)}

/-! ### What sections leave of a text -/

theorem Sections.two_mul_length_le (h : Sections ws cs) : 2 * ws.length ≤ solid cs := by
  induction h with
  | nil => exact Nat.zero_le _
  | @cons blanks content rest contents _ _ _ ih =>
    rw [Text.solid_append, Text.solid_cons_of_not_blank (by decide), Text.solid_append,
      Text.solid_cons_of_not_blank (by decide), List.length_cons]
    omega

/-- **Each section has its own brackets**, and they count. -/
theorem Sections.solid_add_le (h : Sections ws cs) {w : List Char} (hw : w ∈ ws) :
    solid w + 2 * ws.length ≤ solid cs := by
  induction h with
  | nil => cases hw
  | @cons blanks content rest contents _ _ hrest ih =>
    have hlength := hrest.two_mul_length_le
    rw [Text.solid_append, Text.solid_cons_of_not_blank (by decide), Text.solid_append,
      Text.solid_cons_of_not_blank (by decide), List.length_cons]
    rcases List.mem_cons.mp hw with rfl | hw
    · omega
    · have hle := ih hw
      omega

/-- An attribute that stands in one of some sections, with what it has there. -/
theorem exists_of_mem_trimmedNonempty {s a : String} {contents : List String}
    (h : IsSections contents s) (ha : a ∈ Text.trimmedNonempty contents) :
    ∃ w ∈ contents, a = Text.trim w ∧ solid a.toList + 2 * contents.length ≤ solid s.toList := by
  obtain ⟨w, hw, rfl⟩ := List.mem_map.mp (List.mem_of_mem_filter ha)
  have hle := Sections.solid_add_le h (List.mem_map_of_mem (f := String.toList) hw)
  rw [List.length_map] at hle
  exact ⟨w, hw, rfl, by rwa [Text.solid_trim]⟩

/-- A blank text is one of no sections, and stands for nothing. -/
theorem normalize_of_isSections_nil {s : String} (h : IsSections [] s) : normalize s = [] := by
  have hblank : Text.isBlankText s = true := by
    rw [IsSections, List.map_nil] at h
    cases h with
    | nil hblanks => exact List.all_eq_true.mpr hblanks
  simp only [normalize, (Text.trim_eq_empty_iff s).mpr hblank]
  rfl

/-- **What stands for itself** is a trimmed text that is not made of
sections. -/
theorem normalize_eq_self_iff {a : String} :
    normalize a = [a] ↔ Text.trim a = a ∧ ¬∃ contents, IsSections contents a := by
  constructor
  · intro h
    have hsections : ¬∃ contents, IsSections contents a := by
      rintro ⟨contents, hcontents⟩
      rcases contents.eq_nil_or_concat' with rfl | ⟨before, last, rfl⟩
      · rw [normalize_of_isSections_nil hcontents] at h
        cases h
      · -- What is left of sections is not the text that they were.
        rw [normalize_of_isSections hcontents (by simp)] at h
        obtain ⟨w, hw, -, hle⟩ := exists_of_mem_trimmedNonempty hcontents
          (h ▸ List.mem_singleton_self a)
        have hlength := List.length_pos_of_mem hw
        omega
    refine ⟨?_, hsections⟩
    simp only [normalize] at h
    split at h
    · exact Text.trim_of_mem_trimmedNonempty (h ▸ List.mem_singleton_self a)
    · split at h
      · cases h
      · exact (List.cons.inj h).1
  · rintro ⟨htrim, hsections⟩
    have hread : (if Text.startsWith "[" a then sections? a else none) = none := by
      rw [ite_eq_right_iff, Option.eq_none_iff_forall_ne_some]
      exact fun _ contents hcontents => hsections ⟨contents, sections?_eq_some_iff.mp hcontents⟩
    have hne : a ≠ "" := by
      rintro rfl
      exact hsections ⟨[], .nil (List.forall_mem_nil _)⟩
    simp only [normalize, htrim, hread, if_neg hne]

/-! ### One pair of brackets -/

/-- One section from bracket to bracket holds what stands between them. -/
theorem Sections.eq_of_bracketed {w : List Char} (h : Sections [w] ('[' :: (cs ++ [']']))) :
    w = cs := by
  generalize htext : '[' :: (cs ++ [']']) = text at h
  cases h with
  | @cons blanks _ rest _ hblanks _ hrest =>
    cases blanks with
    | cons b blanks =>
      obtain ⟨rfl, -⟩ := List.cons.inj htext
      exact absurd (hblanks '[' (List.mem_cons_self ..)) (by decide)
    | nil =>
      replace htext := (List.cons.inj htext).2
      cases hrest with
      | nil hbehind =>
        rcases rest.eq_nil_or_concat' with rfl | ⟨rest, c, rfl⟩
        · exact (List.append_cancel_right htext).symm
        · -- The last bracket ends the text, so nothing blank is behind it.
          rw [← List.cons_append, ← List.append_assoc] at htext
          obtain ⟨-, hc⟩ := List.append_inj' htext rfl
          obtain rfl : ']' = c := (List.cons.inj hc).1
          exact absurd (hbehind ']' (by simp)) (by decide)

/-- **A text in brackets** is left alone by trimming, and starts with its
bracket. -/
theorem bracketed_spec (content : String) :
    ("[" ++ content ++ "]").toList = '[' :: (content.toList ++ [']']) ∧
      Text.trim ("[" ++ content ++ "]") = "[" ++ content ++ "]" ∧
      Text.startsWith "[" ("[" ++ content ++ "]") = true := by
  have hlist : ("[" ++ content ++ "]").toList = '[' :: (content.toList ++ [']']) := by simp
  refine ⟨hlist, Text.trim_eq_self_of_ends ?_ ?_, ?_⟩
  · rw [hlist]
    simpa using (by decide : Text.isBlank '[' = false)
  · rw [hlist, ← List.cons_append, List.getLast?_concat]
    simpa using (by decide : Text.isBlank ']' = false)
  · rw [Text.startsWith_iff, hlist]
    exact ⟨_, rfl⟩

/-- **When brackets are lost.** An attribute in brackets, not blank between
them, stands for what is between them exactly when that is the content of a
section. -/
theorem normalize_bracketed_eq_iff {content : String} (hblank : Text.isBlankText content = false) :
    normalize ("[" ++ content ++ "]") = [Text.trim content] ↔ Content content.toList := by
  obtain ⟨hlist, htrim, hbracket⟩ := bracketed_spec content
  have hsolid : solid ("[" ++ content ++ "]").toList = solid content.toList + 2 := by
    rw [hlist, Text.solid_cons_of_not_blank (by decide), Text.solid_append,
      Text.solid_cons_of_not_blank (by decide)]
    rfl
  constructor
  · intro h
    cases hread : sections? ("[" ++ content ++ "]") with
    | none =>
      -- Then the brackets stay, and there are two of them too many.
      simp only [normalize, htrim, if_pos hbracket, hread] at h
      rw [if_neg (by intro hempty; rw [hempty] at hsolid; cases hsolid)] at h
      rw [(List.cons.inj h).1, Text.solid_trim] at hsolid
      omega
    | some contents =>
      have hsections := sections?_eq_some_iff.mp hread
      simp only [normalize, htrim, if_pos hbracket, hread] at h
      obtain ⟨w, hw, -, hle⟩ := exists_of_mem_trimmedNonempty hsections
        (h ▸ List.mem_singleton_self (Text.trim content))
      rw [Text.solid_trim, hsolid] at hle
      -- So there is room for the brackets of one section only.
      obtain ⟨v, rfl⟩ : ∃ v, contents = [v] := by
        rw [← List.length_eq_one_iff]
        have hlength := List.length_pos_of_mem hw
        omega
      rw [IsSections, hlist, List.map_singleton] at hsections
      rw [hsections.eq_of_bracketed] at hsections
      exact content_iff.mpr (sectionsFrom_eq_some_iff.mpr hsections)
  · intro hcontent
    have hsections : IsSections [content] ("[" ++ content ++ "]") := by
      rw [IsSections, hlist]
      exact .cons (List.forall_mem_nil _) hcontent (.nil (List.forall_mem_nil _))
    have hne : Text.trim content ≠ "" := by
      rw [Ne, Text.trim_eq_empty_iff, hblank]
      exact Bool.false_ne_true
    rw [normalize_of_isSections hsections (List.cons_ne_nil _ _), Text.trimmedNonempty,
      List.map_singleton, List.filter_cons_of_pos (by simpa using hne), List.filter_nil]

/-- Brackets stay, both of them, on what is no text of sections. -/
theorem normalize_bracketed_eq_self_iff (content : String) :
    normalize ("[" ++ content ++ "]") = ["[" ++ content ++ "]"] ↔
      ¬∃ contents, IsSections contents ("[" ++ content ++ "]") := by
  rw [normalize_eq_self_iff, and_iff_right (bracketed_spec content).2.1]

/-! ### Literals of all kinds -/

/-- **The characters of a verbatim literal** between its quotes: a quote is
written twice, and a backslash is a character like any other. -/
inductive VerbatimBody : List Char → Prop
  | nil : VerbatimBody []
  | plain {c : Char} {cs : List Char} (hquote : c ≠ '"') : VerbatimBody cs → VerbatimBody (c :: cs)
  | doubled {cs : List Char} : VerbatimBody cs → VerbatimBody ('"' :: '"' :: cs)

/-- **What stands between the quotes of a character**: a backslash hides the
character behind it. -/
inductive CharacterBody : List Char → Prop
  | nil : CharacterBody []
  | plain {c : Char} {cs : List Char} (hquote : c ≠ '\'') (hescape : c ≠ '\\') :
      CharacterBody cs → CharacterBody (c :: cs)
  | escaped {c : Char} {cs : List Char} : CharacterBody cs → CharacterBody ('\\' :: c :: cs)

/-- **What an attribute may hold between its brackets** when the literals of all
three kinds are known, verbatim ones and characters of some sort only. Brackets
outside of literals match. -/
inductive Code (verbatim character : List Char → Prop) : List Char → Prop
  | nil : Code verbatim character []
  | plain {c : Char} {cs : List Char} (hquote : c ≠ '"') (hchar : c ≠ '\'') (hopen : c ≠ '[')
      (hclose : c ≠ ']') (hat : c = '@' → cs.head? ≠ some '"') :
      Code verbatim character cs → Code verbatim character (c :: cs)
  | regular {body cs : List Char} : LiteralBody body →
      Code verbatim character cs → Code verbatim character ('"' :: (body ++ '"' :: cs))
  | verbatim {body cs : List Char} (hbody : VerbatimBody body) (hsort : verbatim body)
      (hend : cs.head? ≠ some '"') :
      Code verbatim character cs → Code verbatim character ('@' :: '"' :: (body ++ '"' :: cs))
  | character {body cs : List Char} (hbody : CharacterBody body) (hsort : character body) :
      Code verbatim character cs → Code verbatim character ('\'' :: (body ++ '\'' :: cs))
  | nested {inner cs : List Char} : Code verbatim character inner →
      Code verbatim character cs → Code verbatim character ('[' :: (inner ++ ']' :: cs))

/-- **A verbatim literal that is read in step** by a reader who takes it for one
of the first kind: no backslash stands in front of a quote, unless another one
hides it. -/
inductive InStep : List Char → Prop
  | nil : InStep []
  | plain {c : Char} {cs : List Char} (hquote : c ≠ '"') (hescape : c ≠ '\\') :
      InStep cs → InStep (c :: cs)
  | doubled {cs : List Char} : InStep cs → InStep ('"' :: '"' :: cs)
  | escaped {c : Char} {cs : List Char} (hquote : c ≠ '"') : InStep cs → InStep ('\\' :: c :: cs)

/-- Neither a quote nor a bracket is among some characters. -/
def Unmarked (cs : List Char) : Prop :=
  ∀ c ∈ cs, c ≠ '"' ∧ c ≠ '[' ∧ c ≠ ']'

/-- A verbatim literal in step is ended where it ends. A quote written twice
ends one literal and begins another. -/
theorem InStep.literalThrough {body : List Char} (hbody : InStep body) (hcs : Content cs) :
    LiteralThrough 0 (body ++ '"' :: cs) := by
  induction hbody with
  | nil => exact .ended hcs
  | plain hquote hescape _ ih => exact ih.plain hquote hescape
  | doubled _ ih => exact .ended ih.begun
  | escaped _ _ ih => exact ih.escaped

theorem Unmarked.content {body : List Char} (hbody : Unmarked body) (hcs : Content cs) :
    Content (body ++ cs) := by
  induction body with
  | nil => exact hcs
  | cons c body ih =>
    obtain ⟨⟨hquote, hopen, hclose⟩, hbody⟩ := List.forall_mem_cons.mp hbody
    exact .plain hquote hopen hclose (ih hbody)

/-- **Literals that do no harm.** With verbatim literals in step and no quote or
bracket as a character, brackets match for the reader who knows literals of the
first kind only. -/
theorem Code.content (h : Code InStep Unmarked cs) : Content cs := by
  induction h with
  | nil => exact .nil
  | plain hquote _ hopen hclose _ _ ih => exact .plain hquote hopen hclose ih
  | regular hbody _ ih => exact .literal hbody ih
  | verbatim _ hstep _ _ ih =>
    have hliteral : ContentThrough 0 _ := (hstep.literalThrough ih).begun
    exact .plain (by decide) (by decide) (by decide) hliteral
  | character _ hunmarked _ ih =>
    have hclosing : Content ('\'' :: _) := .plain (by decide) (by decide) (by decide) ih
    exact .plain (by decide) (by decide) (by decide) (hunmarked.content hclosing)
  | nested _ _ ihinner ih => exact .nested ihinner ih

/-- **Which attributes lose their brackets.** An attribute in brackets, not
blank between them, stands for what is between them, trimmed, exactly when that
is the content of a section: when the brackets in it match for a reader of
literals of the first kind. It keeps its brackets, and would be written with a
second pair, exactly when it is no text of sections. Contents with literals of
all three kinds lose them whenever the verbatim literals are in step and the
characters are neither quotes nor brackets. -/
theorem normalize_bracketed_iff {content : String} (hblank : Text.isBlankText content = false) :
    (normalize ("[" ++ content ++ "]") = [Text.trim content] ↔ Content content.toList) ∧
    (normalize ("[" ++ content ++ "]") = ["[" ++ content ++ "]"] ↔
      ¬∃ contents, IsSections contents ("[" ++ content ++ "]")) ∧
    (Code InStep Unmarked content.toList →
      normalize ("[" ++ content ++ "]") = [Text.trim content]) :=
  ⟨normalize_bracketed_eq_iff hblank, normalize_bracketed_eq_self_iff content,
    fun hcode => (normalize_bracketed_eq_iff hblank).mpr hcode.content⟩

/-- Characters that are no quotes, brackets or at signs stand in front of what
an attribute holds. -/
theorem Code.append {verbatim character : List Char → Prop} {p : List Char}
    (hp : p.all (fun c => !List.contains ['"', '\'', '[', ']', '@'] c) = true)
    (h : Code verbatim character cs) : Code verbatim character (p ++ cs) := by
  induction p with
  | nil => exact h
  | cons c p ih =>
    rw [List.all_cons, Bool.and_eq_true] at hp
    obtain ⟨hquote, hchar, hopen, hclose, hat⟩ :
        c ≠ '"' ∧ c ≠ '\'' ∧ c ≠ '[' ∧ c ≠ ']' ∧ c ≠ '@' := by
      simpa using hp.1
    exact .plain hquote hchar hopen hclose (fun h => absurd h hat) (ih hp.2)

/-- Brackets in literals of all three kinds: in a verbatim one with a backslash
and a quote written twice, as an array around a character, and in one of the
first kind behind a quote. -/
theorem normalize_bracketed_iff_literals :
    let content := " Match(@\"\\d[\"\"\", new[] \x7b ',' \x7d, \"\\\"]\")"
    Text.isBlankText content = false ∧ Code InStep Unmarked content.toList ∧
      normalize ("[" ++ content ++ "]") = [Text.trim content] := by
  intro content
  have hblank : Text.isBlankText content = false := by decide +kernel
  have hlist : content.toList = " Match(".toList ++ '@' :: '"' :: ("\\d[\"\"".toList ++ '"' ::
      (", new".toList ++ '[' :: ([] ++ ']' :: (" \x7b ".toList ++ '\'' :: ([','] ++ '\'' ::
        (" \x7d, ".toList ++ '"' :: ("\\\"]".toList ++ '"' :: (")".toList ++ [])))))))) := by
    decide +kernel
  have hcode : Code InStep Unmarked content.toList := by
    rw [hlist]
    refine .append (by decide +kernel) (.verbatim ?_ ?_ (by decide +kernel) ?_)
    · exact .plain (by decide) (.plain (by decide) (.plain (by decide) (.doubled .nil)))
    · exact .escaped (by decide) (.plain (by decide) (by decide) (.doubled .nil))
    refine .append (by decide +kernel) (.nested .nil (.append (by decide +kernel)
      (.character ?_ ?_ (.append (by decide +kernel) (.regular ?_ ?_)))))
    · exact .plain (by decide) (by decide) .nil
    · exact fun c hc => by
        rw [List.mem_singleton.mp hc]
        decide
    · exact .escaped (.plain (by decide) (by decide) .nil)
    · exact .append (by decide +kernel) .nil
  exact ⟨hblank, hcode, (normalize_bracketed_iff hblank).2.2 hcode⟩

/-- **A bracket as a character, and a backslash at the end of a verbatim
literal**, keep the brackets around them, so that the attribute is written in
two pairs. -/
theorem normalize_bracketed_ne_trim :
    let character := "Separator(']')"
    let verbatim := "Folder(@\"C:\\\")"
    let f : FileEmitter :=
      { settings :=
          { file := { attributes := ["[" ++ character ++ "]", "[" ++ verbatim ++ "]"] } } }
    let spec : TypeSpec :=
      { ns := none, declarations := ["public class Order"],
        target := .ref (.ofName "Order" .classType) }
    (∀ content ∈ [character, verbatim], Text.isBlankText content = false ∧
      Text.startsWith "[" content = false ∧
      Code (fun _ => True) (fun _ => True) content.toList ∧
      normalize ("[" ++ content ++ "]") = ["[" ++ content ++ "]"] ∧
      normalize ("[" ++ content ++ "]") ≠ [Text.trim content]) ∧
    f.generate spec .empty = .ok ⟨"Order.g.cs",
      "// <auto-generated/>\n\n#nullable enable annotations\n#nullable disable warnings\n\n" ++
        "[[Separator(']')]]\n[[Folder(@\"C:\\\")]]\npublic class Order\n\x7b\n\x7d"⟩ := by
  intro character verbatim f spec
  have hcharacter : Code (fun _ => True) (fun _ => True) character.toList := by
    have hlist : character.toList =
        "Separator(".toList ++ '\'' :: ([']'] ++ '\'' :: (")".toList ++ [])) := by
      decide +kernel
    rw [hlist]
    exact .append (by decide +kernel) (.character (.plain (by decide) (by decide) .nil) trivial
      (.append (by decide +kernel) .nil))
  have hverbatim : Code (fun _ => True) (fun _ => True) verbatim.toList := by
    have hlist : verbatim.toList =
        "Folder(".toList ++ '@' :: '"' :: (['C', ':', '\\'] ++ '"' :: (")".toList ++ [])) := by
      decide +kernel
    have hbody : VerbatimBody ['C', ':', '\\'] :=
      .plain (by decide) (.plain (by decide) (.plain (by decide) .nil))
    rw [hlist]
    exact .append (by decide +kernel) (.verbatim hbody trivial (by decide +kernel)
      (.append (by decide +kernel) .nil))
  refine ⟨List.forall_mem_cons.mpr ⟨?_, List.forall_mem_singleton.mpr ?_⟩, by decide +kernel⟩
  · exact ⟨by decide +kernel, by decide +kernel, hcharacter, by decide +kernel, by decide +kernel⟩
  · exact ⟨by decide +kernel, by decide +kernel, hverbatim, by decide +kernel, by decide +kernel⟩

end SharpSource.Attribute
