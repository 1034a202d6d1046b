import SharpSource.Declaration.Attribute
import SharpSource.Proofs.Blanks

/-!
# The sections of an attribute

An attribute in brackets is read by an automaton that counts how many brackets
are open and knows whether it stands inside a string literal. What it accepts
can be said without it, by a grammar: the **content** of a section is made of
plain characters, of string literals, and of contents in brackets
(`Attribute.Content`), and a text of **sections** is made of contents in
brackets with blanks around them (`Attribute.Sections`).

That the automaton accepts such texts is an induction on the grammar. For the
other direction its state has to be read as a partial parse: inside `depth + 1`
brackets, what is left up to the end of the section closes the inner brackets
one after the other, with a content in front of each closing one
(`Attribute.ContentThrough`), and inside a literal it first ends the literal
(`Attribute.LiteralThrough`). One character of the text takes one such parse to
another (`Attribute.ReadsTo.push`). So the automaton accepts exactly the grammar
and gives back the contents (`Attribute.sectionsFrom_eq_some_iff`).
-/

namespace SharpSource.Attribute

variable {depth : Nat} {content cs rest : List Char} {ws : List (List Char)}

/-! ### Two states

A quote leads from a section into a literal, and from the literal back. -/

-- Lean makes the equations of both functions for these two lemmas, and they are
-- there for all others.
theorem sectionsFrom_quote :
    sectionsFrom (depth + 1) content ('"' :: cs) = literalFrom (depth + 1) ('"' :: content) cs := by
  simp [sectionsFrom]

theorem literalFrom_quote :
    literalFrom depth content ('"' :: cs) = sectionsFrom depth ('"' :: content) cs := by
  rw [literalFrom.eq_def]
  exact if_pos rfl

/-! ### The grammar -/

/-- **The characters of a string literal** between its quotes: a backslash hides
the character behind it. -/
inductive LiteralBody : List Char → Prop
  | nil : LiteralBody []
  | plain {c : Char} {cs : List Char} (hquote : c ≠ '"') (hescape : c ≠ '\\') :
      LiteralBody cs → LiteralBody (c :: cs)
  | escaped {c : Char} {cs : List Char} : LiteralBody cs → LiteralBody ('\\' :: c :: cs)

/-- **The content of a section**: characters other than brackets and quotes,
string literals, and contents in brackets. -/
inductive Content : List Char → Prop
  | nil : Content []
  | plain {c : Char} {cs : List Char} (hquote : c ≠ '"') (hopen : c ≠ '[') (hclose : c ≠ ']') :
      Content cs → Content (c :: cs)
  | literal {body cs : List Char} :
      LiteralBody body → Content cs → Content ('"' :: (body ++ '"' :: cs))
  | nested {inner cs : List Char} :
      Content inner → Content cs → Content ('[' :: (inner ++ ']' :: cs))

/-- **A text of sections** with some contents: each of them in brackets, and
blanks between them and around them. -/
inductive Sections : List (List Char) → List Char → Prop
  | nil {blanks : List Char} (hblanks : ∀ c ∈ blanks, Text.isBlank c = true) : Sections [] blanks
  | cons {blanks content rest : List Char} {contents : List (List Char)}
      (hblanks : ∀ c ∈ blanks, Text.isBlank c = true) :
      Content content → Sections contents rest →
        Sections (content :: contents) (blanks ++ '[' :: (content ++ ']' :: rest))

/-! ### What the grammar allows is accepted -/

theorem sectionsFrom_open :
    sectionsFrom (depth + 1) content ('[' :: cs) =
      sectionsFrom (depth + 2) ('[' :: content) cs := by
  simp [sectionsFrom]

theorem sectionsFrom_close :
    sectionsFrom (depth + 2) content (']' :: cs) =
      sectionsFrom (depth + 1) (']' :: content) cs := by
  simp [sectionsFrom]

theorem sectionsFrom_last :
    sectionsFrom 1 content (']' :: cs) = (sectionsFrom 0 [] cs).map (content.reverse :: ·) := by
  simp [sectionsFrom]

theorem sectionsFrom_first : sectionsFrom 0 content ('[' :: cs) = sectionsFrom 1 [] cs := by
  simp [sectionsFrom]

theorem sectionsFrom_plain {c : Char} (hquote : c ≠ '"') (hopen : c ≠ '[') (hclose : c ≠ ']') :
    sectionsFrom (depth + 1) content (c :: cs) = sectionsFrom (depth + 1) (c :: content) cs := by
  simp [sectionsFrom, hquote, hopen, hclose]

theorem literalFrom_escape {c : Char} :
    literalFrom depth content ('\\' :: c :: cs) = literalFrom depth (c :: '\\' :: content) cs := by
  rw [literalFrom.eq_def]
  exact (if_neg (by decide)).trans (if_pos rfl)

theorem literalFrom_plain {c : Char} (hquote : c ≠ '"') (hescape : c ≠ '\\') :
    literalFrom depth content (c :: cs) = literalFrom depth (c :: content) cs := by
  rw [literalFrom.eq_def]
  exact (if_neg hquote).trans (if_neg hescape)

/-- A literal is read up to its last quote. -/
theorem literalFrom_body {body : List Char} (h : LiteralBody body) :
    literalFrom depth content (body ++ '"' :: rest) =
      sectionsFrom depth ('"' :: (body.reverse ++ content)) rest := by
  induction h generalizing content with
  | nil => exact literalFrom_quote
  | plain hquote hescape _ ih =>
    rw [List.cons_append, literalFrom_plain hquote hescape, ih]
    simp
  | escaped _ ih =>
    rw [List.cons_append, List.cons_append, literalFrom_escape, ih]
    simp

/-- **A content is read** at any depth, and leaves the depth as it was. -/
theorem sectionsFrom_content {inner : List Char} (h : Content inner) :
    sectionsFrom (depth + 1) content (inner ++ rest) =
      sectionsFrom (depth + 1) (inner.reverse ++ content) rest := by
  induction h generalizing depth content rest with
  | nil => rfl
  | plain hquote hopen hclose _ ih =>
    rw [List.cons_append, sectionsFrom_plain hquote hopen hclose, ih]
    simp
  | literal hbody _ ih =>
    rw [List.cons_append, List.append_assoc, sectionsFrom_quote, List.cons_append,
      literalFrom_body hbody, ih]
    simp
  | nested _ _ ihinner ih =>
    rw [List.cons_append, List.append_assoc, sectionsFrom_open, ihinner, List.cons_append,
      sectionsFrom_close, ih]
    simp

theorem sectionsFrom_blanks {blanks : List Char} (h : ∀ c ∈ blanks, Text.isBlank c = true) :
    sectionsFrom 0 [] (blanks ++ cs) = sectionsFrom 0 [] cs := by
  induction blanks with
  | nil => rfl
  | cons b blanks ih =>
    rw [List.forall_mem_cons] at h
    have hopen : b ≠ '[' := by
      rintro rfl
      exact absurd h.1 (by decide)
    have hclose : b ≠ ']' := by
      rintro rfl
      exact absurd h.1 (by decide)
    rw [List.cons_append, sectionsFrom, if_neg hopen, if_pos ⟨hclose, h.1⟩, ih h.2]

/-- **Sections are accepted**, with their contents as the result. -/
theorem Sections.accepted (h : Sections ws cs) : sectionsFrom 0 [] cs = some ws := by
  induction h with
  | @nil blanks hblanks =>
    have hread : sectionsFrom 0 [] (blanks ++ []) = sectionsFrom 0 [] [] :=
      sectionsFrom_blanks hblanks
    rwa [List.append_nil, sectionsFrom] at hread
  | cons hblanks hcontent _ ih =>
    rw [sectionsFrom_blanks hblanks, sectionsFrom_first, sectionsFrom_content hcontent,
      sectionsFrom_last, ih]
    simp

/-! ### What is accepted is in the grammar -/

/-- **The rest of a section from inside `depth + 1` brackets**, up to the last
of them: the innermost content, and behind its bracket what goes on through the
others. -/
def ContentThrough : Nat → List Char → Prop
  | 0, cs => Content cs
  | depth + 1, cs =>
    ∃ inner rest, Content inner ∧ ContentThrough depth rest ∧ cs = inner ++ ']' :: rest

/-- **The rest of a section from inside a literal**: the literal ends, and
the section goes on. -/
def LiteralThrough (depth : Nat) (cs : List Char) : Prop :=
  ∃ body rest, LiteralBody body ∧ ContentThrough depth rest ∧ cs = body ++ '"' :: rest

/-- What may stand in front of a content may stand in front of the innermost
one. -/
theorem ContentThrough.append {p : List Char} (hp : ∀ cs, Content cs → Content (p ++ cs))
    (h : ContentThrough depth cs) : ContentThrough depth (p ++ cs) := by
  cases depth with
  | zero => exact hp cs h
  | succ depth =>
    obtain ⟨inner, rest, hinner, hrest, rfl⟩ := h
    exact ⟨p ++ inner, rest, hp inner hinner, hrest, by rw [List.append_assoc]⟩

theorem ContentThrough.plain {c : Char} (hquote : c ≠ '"') (hopen : c ≠ '[') (hclose : c ≠ ']')
    (h : ContentThrough depth cs) : ContentThrough depth (c :: cs) :=
  h.append (p := [c]) fun _ => .plain hquote hopen hclose

/-- A bracket is opened: with the one that closes it, it stands in front of the
content around. -/
theorem ContentThrough.opened (h : ContentThrough (depth + 1) cs) :
    ContentThrough depth ('[' :: cs) := by
  obtain ⟨inner, rest, hinner, hrest, rfl⟩ := h
  have hfront := hrest.append (p := '[' :: (inner ++ [']'])) fun cs hcs => by
    simpa using Content.nested hinner hcs
  simpa using hfront

/-- A bracket is closed: nothing of the innermost content is left. -/
theorem ContentThrough.closed (h : ContentThrough depth cs) :
    ContentThrough (depth + 1) (']' :: cs) :=
  ⟨[], cs, .nil, h, rfl⟩

/-- A literal is begun. -/
theorem LiteralThrough.begun (h : LiteralThrough depth cs) : ContentThrough depth ('"' :: cs) := by
  obtain ⟨body, rest, hbody, hrest, rfl⟩ := h
  have hfront := hrest.append (p := '"' :: (body ++ ['"'])) fun cs hcs => by
    simpa using Content.literal hbody hcs
  simpa using hfront

/-- A literal is ended. -/
theorem LiteralThrough.ended (h : ContentThrough depth cs) : LiteralThrough depth ('"' :: cs) :=
  ⟨[], cs, .nil, h, rfl⟩

theorem LiteralThrough.plain {c : Char} (hquote : c ≠ '"') (hescape : c ≠ '\\')
    (h : LiteralThrough depth cs) : LiteralThrough depth (c :: cs) := by
  obtain ⟨body, rest, hbody, hrest, rfl⟩ := h
  exact ⟨c :: body, rest, .plain hquote hescape hbody, hrest, rfl⟩

theorem LiteralThrough.escaped {c : Char} (h : LiteralThrough depth cs) :
    LiteralThrough depth ('\\' :: c :: cs) := by
  obtain ⟨body, rest, hbody, hrest, rfl⟩ := h
  exact ⟨'\\' :: c :: body, rest, .escaped hbody, hrest, rfl⟩

/-- **A partial parse**: behind the content that has been read, a text goes on
to the end of the section by something in `P`, which completes the first content
of the result, and the other sections are behind it. -/
def ReadsTo (P : List Char → Prop) (content cs : List Char) (ws : List (List Char)) : Prop :=
  ∃ inner rest others, P inner ∧ cs = inner ++ ']' :: rest ∧
    ws = (content.reverse ++ inner) :: others ∧ sectionsFrom 0 [] rest = some others

/-- **One step of a partial parse**: characters that have been taken over into
the content may as well be at the front of what is left. -/
theorem ReadsTo.push {P Q : List Char → Prop} {p : List Char} (hp : ∀ cs, P cs → Q (p ++ cs))
    (h : ReadsTo P (p.reverse ++ content) cs ws) : ReadsTo Q content (p ++ cs) ws := by
  obtain ⟨inner, rest, others, hinner, rfl, rfl, hothers⟩ := h
  exact ⟨p ++ inner, rest, others, hp inner hinner, by simp, by simp, hothers⟩

mutual

/-- **The state of the automaton is a partial parse**, inside a section and
inside a literal. -/
theorem readsTo_of_sectionsFrom : ∀ (depth : Nat) (content cs : List Char) (ws : List (List Char)),
    sectionsFrom (depth + 1) content cs = some ws → ReadsTo (ContentThrough depth) content cs ws
  | depth, content, [], ws, h => by
    rw [sectionsFrom] at h
    cases h
  | depth, content, c :: cs, ws, h => by
    unfold sectionsFrom at h
    split at h
    · rename_i hquote
      subst hquote
      exact (readsTo_of_literalFrom depth ('"' :: content) cs ws h).push (p := ['"'])
        fun _ => LiteralThrough.begun
    rename_i hquote
    split at h
    · rename_i hopen
      subst hopen
      exact (readsTo_of_sectionsFrom (depth + 1) ('[' :: content) cs ws h).push (p := ['['])
        fun _ => .opened
    rename_i hopen
    split at h
    · rename_i hclose
      subst hclose
      cases depth with
      | zero =>
        obtain ⟨others, hothers, rfl⟩ := Option.map_eq_some_iff.mp h
        exact ⟨[], cs, others, .nil, rfl, by simp, hothers⟩
      | succ depth =>
        exact (readsTo_of_sectionsFrom depth (']' :: content) cs ws h).push (p := [']'])
          fun _ => .closed
    · rename_i hclose
      exact (readsTo_of_sectionsFrom depth (c :: content) cs ws h).push (p := [c])
        fun _ => .plain hquote hopen hclose

theorem readsTo_of_literalFrom : ∀ (depth : Nat) (content cs : List Char) (ws : List (List Char)),
    literalFrom (depth + 1) content cs = some ws → ReadsTo (LiteralThrough depth) content cs ws
  | depth, content, [], ws, h => by
    rw [literalFrom] at h
    cases h
  | depth, content, c :: cs, ws, h => by
    unfold literalFrom at h
    split at h
    · rename_i hquote
      subst hquote
      exact (readsTo_of_sectionsFrom depth ('"' :: content) cs ws h).push (p := ['"'])
        fun _ => .ended
    rename_i hquote
    split at h
    · rename_i hescape
      subst hescape
      split at h
      · cases h
      · rename_i e rest
        exact (readsTo_of_literalFrom depth (e :: '\\' :: content) rest ws h).push
          (p := ['\\', e]) fun _ => .escaped
    · rename_i hescape
      exact (readsTo_of_literalFrom depth (c :: content) cs ws h).push (p := [c])
        fun _ => .plain hquote hescape

end

/-- A blank in front of a text of sections. -/
theorem Sections.blank {c : Char} (hc : Text.isBlank c = true) (h : Sections ws cs) :
    Sections ws (c :: cs) := by
  cases h with
  | nil hblanks => exact .nil (List.forall_mem_cons.mpr ⟨hc, hblanks⟩)
  | cons hblanks hcontent hrest =>
    have hmore := Sections.cons (List.forall_mem_cons.mpr ⟨hc, hblanks⟩) hcontent hrest
    rwa [List.cons_append] at hmore

/-- **What is accepted is a text of sections**, and the result is their
contents. -/
theorem sections_of_sectionsFrom (h : sectionsFrom 0 [] cs = some ws) : Sections ws cs := by
  induction hn : cs.length using Nat.strong_induction_on generalizing cs ws with
  | _ n ih =>
    subst hn
    cases cs with
    | nil =>
      rw [sectionsFrom] at h
      cases h
      exact .nil (List.forall_mem_nil _)
    | cons c cs =>
      rw [sectionsFrom] at h
      split at h
      · rename_i hopen
        subst hopen
        obtain ⟨inner, rest, others, hinner, rfl, rfl, hothers⟩ :=
          readsTo_of_sectionsFrom 0 [] cs ws h
        have hlength : rest.length < ('[' :: (inner ++ ']' :: rest)).length := by
          simp only [List.length_cons, List.length_append]
          omega
        exact .cons (List.forall_mem_nil _) hinner
          (ih _ hlength hothers rfl)
      · split at h
        · rename_i hblank
          exact (ih _ (Nat.lt_succ_self _) h rfl).blank hblank.2
        · cases h

theorem sectionsFrom_eq_some_iff : sectionsFrom 0 [] cs = some ws ↔ Sections ws cs :=
  ⟨sections_of_sectionsFrom, Sections.accepted⟩

/-! ### Sections of texts -/

/-- **A text is made of sections** with some contents. -/
def IsSections (contents : List String) (s : String) : Prop :=
  Sections (contents.map String.toList) s.toList

theorem sections?_eq_some_iff {s : String} {contents : List String} :
    sections? s = some contents ↔ IsSections contents s := by
  rw [sections?, IsSections, ← sectionsFrom_eq_some_iff, Option.map_eq_some_iff]
  constructor
  · rintro ⟨ws, hws, rfl⟩
    simpa [Function.comp_def] using hws
  · intro h
    exact ⟨_, h, by simp [Function.comp_def]⟩

instance (contents : List String) (s : String) : Decidable (IsSections contents s) :=
  decidable_of_iff _ sections?_eq_some_iff

/-- A content is what a single section may hold. -/
theorem content_iff : Content cs ↔ sectionsFrom 0 [] ('[' :: (cs ++ [']'])) = some [cs] := by
  constructor
  · intro h
    exact (Sections.cons (List.forall_mem_nil _) h (.nil (List.forall_mem_nil _))).accepted
  · intro h
    rw [sectionsFrom_first] at h
    obtain ⟨inner, rest, others, hinner, -, hws, -⟩ := readsTo_of_sectionsFrom 0 [] _ _ h
    rwa [(List.cons.inj hws).1]

instance : DecidablePred Content := fun _ => decidable_of_iff _ content_iff.symm

/-! ### Normal forms -/

/-- Blanks at the end of a text of sections do not count. -/
theorem Sections.dropBlankEnd (h : Sections ws cs) : Sections ws (Text.dropBlankEnd cs) := by
  induction h with
  | nil hblanks =>
    rw [(Text.dropBlankEnd_eq_nil_iff _).mpr hblanks]
    exact .nil (List.forall_mem_nil _)
  | @cons blanks content rest contents hblanks hcontent _ ih =>
    have hend : Text.dropBlankEnd (blanks ++ '[' :: (content ++ ']' :: rest)) =
        blanks ++ '[' :: (content ++ ']' :: Text.dropBlankEnd rest) := by
      have hsplit : ∀ rest, blanks ++ '[' :: (content ++ ']' :: rest) =
          (blanks ++ '[' :: content) ++ ']' :: rest := fun rest => by simp
      rw [hsplit, Text.dropBlankEnd_append_cons (by decide), hsplit]
    rw [hend]
    exact .cons hblanks hcontent ih

/-- A text with a section in it starts with its bracket once it is trimmed. -/
theorem Sections.trimChars (h : Sections ws cs) (hws : ws ≠ []) :
    Sections ws (Text.trimChars cs) ∧ ∃ rest, Text.trimChars cs = '[' :: rest := by
  cases h with
  | nil => exact absurd rfl hws
  | @cons blanks content rest contents hblanks hcontent hrest =>
    have hfront : (blanks ++ '[' :: (content ++ ']' :: rest)).dropWhile Text.isBlank =
        '[' :: (content ++ ']' :: rest) := by
      rw [List.dropWhile_append_of_pos hblanks, List.dropWhile_cons_of_neg (by decide)]
    rw [Text.trimChars, hfront]
    constructor
    · exact Sections.dropBlankEnd
        (.cons (List.forall_mem_nil _) hcontent hrest)
    · exact ⟨_, Text.dropBlankEnd_append_cons (by decide) [] _⟩

/-- **Sections stand for their contents**, trimmed and without the blank
ones. -/
theorem normalize_of_isSections {s : String} {contents : List String} (h : IsSections contents s)
    (hne : contents ≠ []) : normalize s = Text.trimmedNonempty contents := by
  obtain ⟨hsections, rest, hrest⟩ := Sections.trimChars h (by simpa using hne)
  have hread : sections? (Text.trim s) = some contents := by
    rw [sections?_eq_some_iff, IsSections, Text.trim, String.toList_ofList]
    exact hsections
  have hbracket : Text.startsWith "[" (Text.trim s) = true := by
    have htrim : (Text.trim s).toList = '[' :: rest := String.toList_ofList.trans hrest
    rw [Text.startsWith_iff, htrim]
    exact ⟨rest, rfl⟩
  simp only [normalize, if_pos hbracket, hread]

/-- An attribute without a bracket in front stands for itself. -/
theorem normalize_bare {a : String} (htrim : Text.trim a = a) (hne : a ≠ "")
    (hbracket : Text.startsWith "[" a = false) : normalize a = [a] := by
  simp only [normalize, htrim, hbracket, if_neg hne, Bool.false_eq_true, if_false]

/-- **The sections of an attribute are those of the grammar.** A text is read as
sections exactly when it is made of sections, any number of them with blanks
around them, and what is read are the contents in order. So the attributes that
a text of one section or more stands for are the contents, trimmed and without
the blank ones, whatever blanks stand between the sections. And a content that
is trimmed, not empty and does not start with a bracket stands for itself, in
brackets as well as bare. -/
theorem sections_exact :
    (∀ (s : String) (contents : List String),
      sections? s = some contents ↔ IsSections contents s) ∧
    (∀ (s : String) (contents : List String), contents ≠ [] → IsSections contents s →
      normalize s = Text.trimmedNonempty contents) ∧
    ∀ a : String, Content a.toList → Text.trim a = a → a ≠ "" → Text.startsWith "[" a = false →
      normalize a = [a] ∧ normalize ("[" ++ a ++ "]") = [a] := by
  refine ⟨fun _ _ => sections?_eq_some_iff, fun s contents hne h => normalize_of_isSections h hne,
    fun a hcontent htrim hne hbracket => ⟨normalize_bare htrim hne hbracket, ?_⟩⟩
  have hsections : IsSections [a] ("[" ++ a ++ "]") := by
    rw [IsSections, String.toList_append, String.toList_append, List.append_assoc]
    exact .cons (List.forall_mem_nil _) hcontent (.nil (List.forall_mem_nil _))
  rw [normalize_of_isSections hsections (List.cons_ne_nil _ _), Text.trimmedNonempty, List.map_cons,
    htrim, List.map_nil, List.filter_cons_of_pos (by simpa using hne), List.filter_nil]

/-- Three sections, of which one holds a bracket in a literal and one nothing
but a blank, and an attribute with a bracket in a literal, in brackets and
bare. -/
theorem sections_exact_literal :
    let s := " [A]\n[B(\"]\")][ ] "
    let a := "Index(new[] \x7b 1 \x7d, \"\\\"]\")"
    sections? s = some ["A", "B(\"]\")", " "] ∧ normalize s = ["A", "B(\"]\")"] ∧
      normalize a = [a] ∧ normalize ("[" ++ a ++ "]") = [a] := by
  intro s a
  obtain ⟨hsections, hnormal, hbare⟩ := sections_exact
  have hs : IsSections ["A", "B(\"]\")", " "] s := by decide +kernel
  refine ⟨(hsections _ _).mpr hs, (hnormal _ _ (List.cons_ne_nil _ _) hs).trans (by decide +kernel),
    hbare a ?_ ?_ ?_ ?_⟩
  · decide +kernel
  · decide +kernel
  · decide +kernel
  · decide +kernel

end SharpSource.Attribute
