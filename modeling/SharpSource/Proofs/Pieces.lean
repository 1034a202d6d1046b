import SharpSource.Emitter.Builtin
import SharpSource.Proofs.Outcome
import SharpSource.Proofs.Reach

/-!
# The pieces of the built-in emitters

A built-in emitter that is handed a writer puts a text behind what is there.
The text depends on the context of the emitter and on the level and the
indentation of the writer, and on nothing else of it: `Builtin.piece` is the
text as a function of these, and `Builtin.write_eq` says that nothing else
happens. The level stays as it was (`Builtin.keepsLevel`), and the writer is
only worked by its operations (`Builtin.worksByOperations`).

| emitter | its piece | when it fails |
|---|---|---|
| properties | the members, each with its attributes above | a member without a declaration |
| equatable | two blocks with a line between them | never |
| snippet | the text as a line, or nothing for a blank one | never |
-/

namespace SharpSource

open Layout
open Writer (lineText)

/-! ### Members -/

namespace Member

/-- The text of a member at a level: its attributes, and its declaration
below. -/
def text (i : Indent) (level : Nat) (m : Member) : Except Failure String :=
  m.declaration.map fun declared => linesText i level (m.attributeLines ++ [declared])

theorem write_eq (w : Writer) (m : Member) :
    Member.write w m = (m.text w.indent w.level).map w.put := by
  rw [Member.write, text]
  cases m.declaration with
  | error e => rfl
  | ok declared =>
    change Except.ok ((w.lines m.attributeLines).line declared) =
      .ok (w.put (linesText w.indent w.level (m.attributeLines ++ [declared])))
    rw [← Writer.lines_eq_put, Writer.lines_append]
    rfl

/-- Members are written one below the other. -/
theorem foldlM_write_eq (w : Writer) (ms : List Member) :
    ms.foldlM Member.write w =
      (ms.mapM (text w.indent w.level)).map fun texts => w.put (String.join texts) := by
  induction ms generalizing w with
  | nil => simp [Writer.put, pure, Except.pure, Except.map]
  | cons m ms ih =>
    rw [List.foldlM_cons, List.mapM_cons, write_eq]
    cases hm : m.text w.indent w.level with
    | error e => rfl
    | ok t =>
      change ms.foldlM Member.write (w.put t) = _
      rw [ih, Writer.indent_put, Writer.level_put]
      cases ms.mapM (text w.indent w.level) with
      | error e => rfl
      | ok ts =>
        change Except.ok ((w.put t).put (String.join ts)) = .ok (w.put (String.join (t :: ts)))
        simp [Writer.put, String.append_assoc]

theorem reaches_foldlM_write {ms : List Member} {w w' : Writer}
    (h : ms.foldlM Member.write w = .ok w') : w.Reaches w' := by
  induction ms generalizing w with
  | nil =>
    cases h
    exact .refl
  | cons m ms ih =>
    rw [List.foldlM_cons] at h
    obtain ⟨w₁, hm, hms⟩ := Outcome.bind_eq_ok_iff.mp h
    obtain ⟨declared, -, ⟨⟩⟩ := Outcome.bind_eq_ok_iff.mp hm
    exact ((Writer.reaches_lines _ w).tail (.line _ declared)).trans (ih hms)

end Member

/-! ### Equality -/

namespace Emitter

/-- The mark of a type whose values may be absent, where a file annotates such
types. -/
def absentMark (c : Context) : String :=
  if c.options.nullableAnnotations then "?" else ""

/-- The line above the typed comparison. -/
def equalsLine (c : Context) (d : TypeDesc) : String :=
  "public bool Equals(" ++ d.genericName ++ (if d.isValue then "" else absentMark c) ++ " other)"

/-- The comparison of objects, by the typed one. -/
def objectEqualsLine (c : Context) (d : TypeDesc) : String :=
  "public override bool Equals(object" ++ absentMark c ++ " obj) => obj is " ++ d.genericName ++
    " other && Equals(other);"

/-- The lines of the typed comparison. -/
def equalsBody (i : Indent) (c : Context) (d : TypeDesc) : List String :=
  (if d.isValue then [] else referenceChecks) ++ [comparisonStatement i c.spec.members]

/-- The lines of the hash. -/
def hashBody (c : Context) : List String :=
  "var hash = new global::System.HashCode();" ::
    c.spec.members.map (fun m => "hash.Add(" ++ m.token ++ ");") ++ ["return hash.ToHashCode();"]

/-- What makes a described type equatable, at a level: a block, a line and a
block, with an empty line between any two of them. -/
def equatablePiece (c : Context) (d : TypeDesc) (level : Nat) (i : Indent) : String :=
  block i level (lineText i level (equalsLine c d)) (linesText i (level + 1) (equalsBody i c d)) ++
    "\n" ++ lineText i level (objectEqualsLine c d) ++ "\n" ++
    block i level (lineText i level "public override int GetHashCode()")
      (linesText i (level + 1) (hashBody c))

/-- The block of the hash, with its lines written as the emitter writes them. -/
theorem closeBlock_hash (c : Context) (w : Writer) :
    (((((w.line "public override int GetHashCode()").openBlock.line
      "var hash = new global::System.HashCode();").lines
      (c.spec.members.map fun m => "hash.Add(" ++ m.token ++ ");")).line
      "return hash.ToHashCode();").closeBlock) =
    .ok (w.put (block w.indent w.level
      (lineText w.indent w.level "public override int GetHashCode()")
      (linesText w.indent (w.level + 1) (hashBody c)))) := by
  rw [← Writer.closeBlock_eq_block, hashBody, Writer.lines_append]
  rfl

/-- The block of the typed comparison, with its lines written as the emitter
writes them. -/
theorem closeBlock_equals (c : Context) (d : TypeDesc) (w : Writer) :
    (((w.line (equalsLine c d)).openBlock.lines (if d.isValue then [] else referenceChecks)).line
      (comparisonStatement w.indent c.spec.members)).closeBlock =
    .ok (w.put (block w.indent w.level (lineText w.indent w.level (equalsLine c d))
      (linesText w.indent (w.level + 1) (equalsBody w.indent c d)))) := by
  rw [← Writer.closeBlock_eq_block, equalsBody, Writer.lines_append]
  rfl

theorem writeEquatable_eq (c : Context) (d : TypeDesc) (w : Writer) :
    writeEquatable c d w = .ok (w.put (equatablePiece c d w.level w.indent)) := by
  have hequals := closeBlock_equals c d w
  unfold equalsLine absentMark at hequals
  rw [writeEquatable]
  simp only [Writer.indent_lines, Writer.indent_openBlock, Writer.indent_line]
  rw [hequals, Outcome.ok_bind, closeBlock_hash]
  unfold equatablePiece objectEqualsLine equalsLine absentMark
  simp only [Writer.put, Writer.line, Writer.blankLine, String.append_assoc]

/-- Nothing in it takes text away or leaves the level changed for good: two
blocks are opened, and both are closed. -/
theorem reaches_writeEquatable {c : Context} {d : TypeDesc} {w w' : Writer}
    (h : writeEquatable c d w = .ok w') : w.Reaches w' := by
  rw [writeEquatable] at h
  obtain ⟨w₁, hequals, hhash⟩ := Outcome.bind_eq_ok_iff.mp h
  have hfirst : w.Reaches w₁ :=
    .tail (.tail (.trans (.tail (.single (.line w _)) (.openBlock _)) (Writer.reaches_lines _ _))
      (.line _ _)) (.closeBlock hequals)
  have hbetween : w₁.Reaches (w₁.blankLine.line (objectEqualsLine c d)).blankLine :=
    .tail (.tail (.single (.blankLine w₁)) (.line _ _)) (.blankLine _)
  refine (hfirst.trans hbetween).trans (.tail (.tail (.trans (.tail (.tail (.single (.line _ _))
    (.openBlock _)) (.line _ _)) (Writer.reaches_lines _ _)) (.line _ _)) (.closeBlock hhash))

end Emitter

/-! ### Snippets -/

/-- What a snippet writes: its text as a line, without the blanks at its end. -/
def Snippet.piece (s : Snippet) (level : Nat) (i : Indent) : String :=
  if Text.trimEnd s.text = "" then "" else lineText i level (Text.trimEnd s.text)

theorem Snippet.write_eq (s : Snippet) (w : Writer) :
    s.write w = w.put (s.piece w.level w.indent) := by
  rw [Snippet.write, Snippet.piece]
  by_cases hblank : Text.trimEnd s.text = ""
  · simp [hblank, Writer.put]
  · simp [hblank, Writer.line]

/-! ### All built-in emitters -/

namespace Builtin

open Emitter (equatableTarget? equatablePiece)

/-- **The piece of a built-in emitter**, where it does not fail. -/
def piece : Builtin → Context → (level : Nat) → Indent → Except Failure String
  | properties, c, level, i => (c.spec.members.mapM (Member.text i level)).map String.join
  | equatable, c, level, i =>
    .ok (match equatableTarget? c.spec with
      | some d => equatablePiece c d level i
      | none => "")
  | snippet s, _, level, i => .ok (s.piece level i)

variable (b : Builtin) (c : Context) (w : Writer)

/-- **A built-in emitter only puts its piece** behind the text of the writer. -/
theorem write_eq : b.emitter.write c w = (b.piece c w.level w.indent).map w.put := by
  cases b with
  | properties =>
    change c.spec.members.foldlM Member.write w = _
    rw [Member.foldlM_write_eq, piece]
    cases c.spec.members.mapM (Member.text w.indent w.level) with
    | error e => rfl
    | ok texts => rfl
  | equatable =>
    change (match equatableTarget? c.spec with
      | some d => Emitter.writeEquatable c d w
      | none => .ok w) = _
    rw [piece]
    cases equatableTarget? c.spec with
    | none => simp [Except.map, Writer.put]
    | some d => exact Emitter.writeEquatable_eq c d w
  | snippet s =>
    change Except.ok (s.write w) = _
    rw [Snippet.write_eq]
    rfl

variable {b c w} in
/-- A built-in emitter writes when all members can be declared; those that do
not declare members write in any case. -/
theorem write_ok (h : ∀ m ∈ c.spec.members, ∃ s, m.declaration = .ok s) :
    ∃ w', b.emitter.write c w = .ok w' := by
  have hpiece : ∃ s, b.piece c w.level w.indent = .ok s := by
    cases b with
    | properties =>
      obtain ⟨texts, htexts⟩ := Outcome.mapM_ok_of_forall (f := Member.text w.indent w.level)
        fun m hm => by
          obtain ⟨s, hs⟩ := h m hm
          exact ⟨_, Outcome.map_eq_ok_iff.mpr ⟨s, hs, rfl⟩⟩
      exact ⟨_, Outcome.map_eq_ok_iff.mpr ⟨texts, htexts, rfl⟩⟩
    | equatable => exact ⟨_, rfl⟩
    | snippet s => exact ⟨_, rfl⟩
  obtain ⟨s, hs⟩ := hpiece
  exact ⟨_, by rw [write_eq, hs]; rfl⟩

/-- **A built-in emitter keeps the level** of the writer. -/
theorem keepsLevel : b.emitter.KeepsLevel := by
  intro c w w' h
  rw [write_eq, Outcome.map_eq_ok_iff] at h
  obtain ⟨s, -, rfl⟩ := h
  exact Writer.level_put w s

/-- **A built-in emitter works by operations** of the writer. -/
theorem worksByOperations : b.emitter.WorksByOperations := by
  intro c w w' h
  cases b with
  | properties =>
    exact Member.reaches_foldlM_write h
  | equatable =>
    change (match equatableTarget? c.spec with
      | some d => Emitter.writeEquatable c d w
      | none => .ok w) = .ok w' at h
    cases hd : equatableTarget? c.spec with
    | none =>
      rw [hd] at h
      cases h
      exact .refl
    | some d =>
      rw [hd] at h
      exact Emitter.reaches_writeEquatable h
  | snippet s =>
    change Except.ok (s.write w) = .ok w' at h
    cases h
    rw [Snippet.write]
    by_cases hblank : Text.trimEnd s.text = ""
    · rw [if_pos hblank]
    · rw [if_neg hblank]
      exact .single (.line w _)

end Builtin

end SharpSource
