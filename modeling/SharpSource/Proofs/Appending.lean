import SharpSource.Emitter.InPlace
import SharpSource.Proofs.Pieces
import SharpSource.Proofs.Runs

/-!
# Emitters that only append

A program that works a writer **appends** a text when it puts that text behind
whatever the writer holds, and makes nothing of what this is (`Writer.Appends`).
Its level may be another at the end, and it may fail, but then the text up to
the failure is there. Programs that do so one after the other append their texts
one after the other, each at the level that the one before left
(`Writer.Appends.then`), and a failure ends it (`Writer.Appends.stop`).

Every operation is such a program. Opening a block goes up one level, and
closing one goes down from a level that is not zero, where it does not fail
(`Writer.appends_closeBlock`). So an emitter that closes the blocks that it
opened cannot fail by that, and is back at its level, wherever it started.

What may fail is the declaration of a member. Here a program **writes a
result**, a text or a failure, and in the second case some text all the same
(`Writer.Writes`). A loop over members writes the results of all of them, up to
the first failure (`Writer.writes_forM`). Every built-in emitter writes its
piece in this way (`Builtin.writes`), and never reads what is there already
(`Builtin.writeInPlace_appends`).
-/

namespace SharpSource

open Layout
open Writer (Work lineText closeBlockInPlace)

/-! ### Programs that append -/

namespace Writer

/-- **A program appends a text**, from a level to another: whatever text the
writer holds, it is there afterwards with the new one behind it, and in case of
a failure it is that one. -/
def Appends (p : Work Unit) (i : Indent) (level : Nat) (s : String) (level' : Nat)
    (failure : Option Failure) : Prop :=
  ∀ text : String, p { text, level, indent := i } =
    match failure with
    | none => .ok () { text := text ++ s, level := level', indent := i }
    | some e => .error e { text := text ++ s, level := level', indent := i }

variable {p q : Work Unit} {i : Indent} {level level' level'' : Nat} {s t : String}
  {failure : Option Failure} {e : Failure}

/-- **One program after another**: both texts are appended, the second at the
level that the first one left. -/
theorem Appends.then (hp : Appends p i level s level' none)
    (hq : Appends q i level' t level'' failure) :
    Appends (p >>= fun _ => q) i level (s ++ t) level'' failure := by
  intro text
  have hrun : (p >>= fun _ => q) { text, level, indent := i } =
      q { text := text ++ s, level := level', indent := i } := by
    change EStateM.bind p _ _ = _
    rw [EStateM.bind, hp text]
  rw [hrun, hq (text ++ s), String.append_assoc]

/-- **Nothing is appended behind a failure.** -/
theorem Appends.stop (hp : Appends p i level s level' (some e)) :
    Appends (p >>= fun _ => q) i level s level' (some e) := by
  intro text
  change EStateM.bind p _ _ = _
  rw [EStateM.bind, hp text]

theorem appends_pure : Appends (pure ()) i level "" level none := fun text => by
  rw [String.append_empty]
  rfl

theorem appends_throw : Appends (throw e) i level "" level (some e) := fun text => by
  rw [String.append_empty]
  rfl

/-- A line that may depend on the indentation of the writer. -/
theorem appends_line (line : Writer → String)
    (hline : ∀ text, line { text, level, indent := i } = s) :
    Appends (modify fun w => w.line (line w)) i level (lineText i level s) level none := fun text =>
  hline text ▸ rfl

theorem appends_blankLine : Appends (modify (·.blankLine)) i level "\n" level none :=
  fun _ => rfl

theorem appends_openBlock :
    Appends (modify (·.openBlock)) i level (openLine i level) (level + 1) none :=
  fun _ => rfl

/-- **Closing a block** does not fail at any level but zero. -/
theorem appends_closeBlock :
    Appends closeBlockInPlace i (level + 1) (closeLine i level) level none := fun text => by
  rw [Op.closeBlockInPlace_eq, closeBlock]
  change EStateM.Result.ok () (closingBrace _) = _
  rw [closingBrace_eq]
  rfl

/-- A line for each element of a list. -/
theorem appends_forM_line {α : Type} (f : α → String) (xs : List α) :
    Appends (xs.forM fun x => modify (·.line (f x))) i level (linesText i level (xs.map f)) level
      none := by
  induction xs with
  | nil => exact appends_pure
  | cons x xs ih =>
    rw [List.map_cons, linesText, List.map_cons, String.join_cons]
    exact (appends_line _ fun _ => rfl).then ih

/-! ### Programs that may fail -/

/-- **A program writes a result**: it appends the text and succeeds, or it
appends something and fails as the result does. -/
def Writes (p : Work Unit) (i : Indent) (level : Nat) (r : Except Failure String) : Prop :=
  ∃ (s : String) (failure : Option Failure),
    Appends p i level s level failure ∧ r = failure.elim (.ok s) .error

variable {r r' : Except Failure String}

theorem Appends.writes_ok (h : Appends p i level s level none) : Writes p i level (.ok s) :=
  ⟨s, none, h, rfl⟩

theorem Appends.writes_error (h : Appends p i level s level (some e)) :
    Writes p i level (.error e) :=
  ⟨s, some e, h, rfl⟩

/-- **One result after another**: the first failure is that of both. -/
theorem Writes.then (hp : Writes p i level r) (hq : Writes q i level r') :
    Writes (p >>= fun _ => q) i level (r.bind fun s => r'.map (s ++ ·)) := by
  obtain ⟨s, failure, happends, rfl⟩ := hp
  cases failure with
  | some e => exact happends.stop.writes_error
  | none =>
    obtain ⟨t, failure', happends', rfl⟩ := hq
    cases failure' with
    | some e => exact (happends.then happends').writes_error
    | none => exact (happends.then happends').writes_ok

/-- **A loop writes all results** of its elements, up to the first failure. -/
theorem writes_forM {α : Type} {f : α → Work Unit} {result : α → Except Failure String}
    (h : ∀ x, Writes (f x) i level (result x)) (xs : List α) :
    Writes (xs.forM f) i level ((xs.mapM result).map String.join) := by
  induction xs with
  | nil => exact appends_pure.writes_ok
  | cons x xs ih =>
    have hresult : ((x :: xs).mapM result).map String.join =
        (result x).bind fun s => ((xs.mapM result).map String.join).map (s ++ ·) := by
      rw [List.mapM_cons]
      cases result x with
      | error e => rfl
      | ok s =>
        cases xs.mapM result with
        | error e => rfl
        | ok texts => exact congrArg Except.ok (String.join_cons ..)
    rw [hresult]
    exact (h x).then ih

end Writer

open Writer (Appends Writes appends_line appends_blankLine appends_openBlock appends_closeBlock
  appends_forM_line)

/-! ### Members -/

/-- **A member writes its text**, where it can be declared, and otherwise its
attributes. -/
theorem Member.writes (m : Member) (i : Indent) (level : Nat) :
    Writes m.writeInPlace i level (m.text i level) := by
  have hattributes : Appends (m.attributes.forM fun a => modify (·.line ("[" ++ a ++ "]"))) i level
      (linesText i level m.attributeLines) level none :=
    appends_forM_line _ _
  rw [writeInPlace, text]
  cases m.declaration with
  | error e => exact (hattributes.then Writer.appends_throw).writes_error
  | ok declared =>
    have htext : linesText i level (m.attributeLines ++ [declared]) =
        linesText i level m.attributeLines ++ lineText i level declared := by
      simp [linesText]
    rw [Except.map, htext]
    exact (hattributes.then (appends_line _ fun _ => rfl)).writes_ok

/-- A member without a declaration leaves its attributes behind, and the member
before it. -/
example :
    let declaring : TypeRef := .ofName "Order" .classType
    let id : Member := { name := "Id", type := .ofName "Amount" .classType, declaring }
    let secret : Member := { id with
      name := "Secret", accessibility := .notApplicable, attributes := ["Key"] }
    [id, secret].forM Member.writeInPlace { text := "\x7b\n", level := 1, indent := .spaces } =
      .error (.accessibility .notApplicable)
        { text := "\x7b\n    public global::Amount Id \x7b get; set; \x7d\n    [Key]\n",
          level := 1, indent := .spaces } := by
  rfl

/-! ### Equality -/

/-- **What makes a type equatable is appended** at any level, and never fails:
each of the two blocks is closed at the level that its own brace went up to. -/
theorem Emitter.appends_writeEquatableInPlace (c : Context) (d : TypeDesc) (i : Indent)
    (level : Nat) :
    Appends (writeEquatableInPlace c d) i level (equatablePiece c d level i) level none := by
  have htext : equatablePiece c d level i =
      lineText i level (equalsLine c d) ++ (openLine i level ++
        (linesText i (level + 1) ((if d.isValue then [] else referenceChecks).map id) ++
        (lineText i (level + 1) (comparisonStatement i c.spec.members) ++ (closeLine i level ++
      ("\n" ++ (lineText i level (objectEqualsLine c d) ++ ("\n" ++
      (lineText i level "public override int GetHashCode()" ++ (openLine i level ++
        (lineText i (level + 1) "var hash = new global::System.HashCode();" ++
        (linesText i (level + 1) (c.spec.members.map fun m => "hash.Add(" ++ m.token ++ ");") ++
        (lineText i (level + 1) "return hash.ToHashCode();" ++ closeLine i level)))))))))))) := by
    simp only [equatablePiece, block, equalsBody, hashBody, linesText, List.map_append,
      List.map_cons, List.map_nil, List.map_id, List.cons_append, String.join_append,
      String.join_cons, String.join_nil, String.append_empty, String.append_assoc]
  rw [htext, writeEquatableInPlace]
  -- The typed comparison.
  refine (appends_line _ fun _ => rfl).then ?_
  refine appends_openBlock.then ?_
  refine (appends_forM_line _ _).then ?_
  refine (appends_line _ fun _ => rfl).then ?_
  refine appends_closeBlock.then ?_
  -- The comparison of objects.
  refine appends_blankLine.then ?_
  refine (appends_line _ fun _ => rfl).then ?_
  refine appends_blankLine.then ?_
  -- The hash.
  refine (appends_line _ fun _ => rfl).then ?_
  refine appends_openBlock.then ?_
  refine (appends_line _ fun _ => rfl).then ?_
  refine (appends_forM_line _ _).then ?_
  exact (appends_line _ fun _ => rfl).then appends_closeBlock

theorem Snippet.appends_writeInPlace (s : Snippet) (i : Indent) (level : Nat) :
    Appends s.writeInPlace i level (s.piece level i) level none := by
  rw [writeInPlace, piece]
  by_cases hblank : Text.trimEnd s.text = ""
  · rw [if_pos hblank]
    simp only [hblank]
    exact Writer.appends_pure
  · rw [if_neg hblank]
    simp only [hblank]
    exact appends_line _ fun _ => rfl

/-! ### All built-in emitters -/

/-- **A built-in emitter writes its piece.** -/
theorem Builtin.writes (b : Builtin) (c : Context) (i : Indent) (level : Nat) :
    Writes (b.writeInPlace c) i level (b.piece c level i) := by
  cases b with
  | properties => exact Writer.writes_forM (fun m => m.writes i level) c.spec.members
  | equatable =>
    rw [writeInPlace, piece]
    cases Emitter.equatableTarget? c.spec with
    | none => exact Writer.appends_pure.writes_ok
    | some d => exact (Emitter.appends_writeEquatableInPlace c d i level).writes_ok
  | snippet s => exact (s.appends_writeInPlace i level).writes_ok

/-- Only members can lack a text. -/
theorem Builtin.eq_properties_of_piece {b : Builtin} {c : Context} {i : Indent} {level : Nat}
    {e : Failure} (h : b.piece c level i = .error e) : b = .properties := by
  cases b with
  | properties => rfl
  | equatable => cases h
  | snippet s => cases h

/-- **Built-in emitters only append.** For any context, level and indentation
there is a text, and a failure or none, that do not depend on what the writer
holds: the emitter leaves the writer with this text behind its own one, at the
level where it was, and then fails with the failure if there is one. A file gets
the same of it, where a failure leaves no writer. Only the emitter of properties
can fail at all. -/
theorem Builtin.writeInPlace_appends (b : Builtin) (c : Context) (i : Indent) (level : Nat) :
    ∃ (s : String) (failure : Option Failure),
      (∀ text : String, b.writeInPlace c { text, level, indent := i } =
        match failure with
        | none => .ok () { text := text ++ s, level, indent := i }
        | some e => .error e { text := text ++ s, level, indent := i }) ∧
      (∀ text : String, b.emitter.write c { text, level, indent := i } =
        match failure with
        | none => .ok { text := text ++ s, level, indent := i }
        | some e => .error e) ∧
      (failure = none ∨ b = .properties) := by
  obtain ⟨s, failure, happends, hpiece⟩ := b.writes c i level
  refine ⟨s, failure, happends, fun text => ?_, ?_⟩
  · rw [b.write_eq, hpiece]
    cases failure with
    | none => rfl
    | some e => rfl
  · cases failure with
    | none => exact .inl rfl
    | some e => exact .inr (eq_properties_of_piece hpiece)

end SharpSource
