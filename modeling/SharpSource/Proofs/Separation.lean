import SharpSource.FileEmitter
import SharpSource.Proofs.Pieces

/-!
# Bodies with empty lines between them

The participants of a file write their pieces one after the other, and the file
has empty lines between any two of them, but not around them, and none for a
participant that writes nothing. The writer cannot know beforehand whether a
piece will be empty: it puts the empty lines first, lets the participant write,
and goes back to the text from before when nothing was written.

What comes out is `Bodies.separated`: the pieces that are not empty, joined by
the empty lines. The loop is followed through `Bodies.after`, its state after
some pieces, which is the text `separated` of these pieces and whether any of
them was not empty. One more piece takes it to the state after one more
(`Bodies.after_cons`), so the whole run ends with all pieces, or with the first
participant that fails.
-/

namespace SharpSource

namespace Bodies

/-! ### Joined pieces -/

/-- Empty lines as text. -/
def emptyLines (n : Nat) : String :=
  String.ofList (List.replicate n '\n')

/-- **The pieces that are not empty**, in order, with `n` empty lines between
any two of them. -/
def separated (n : Nat) (pieces : List String) : String :=
  (emptyLines n).intercalate (pieces.filter (· != ""))

/-- Whether some piece is not empty. -/
def begun (pieces : List String) : Bool :=
  pieces.any (· != "")

/-- The text that the piece behind some others finds: the others, and empty
lines unless all of them are empty. -/
def lead (n : Nat) (pieces : List String) : String :=
  separated n pieces ++ if begun pieces then emptyLines n else ""

variable (n : Nat) (pieces : List String)

theorem filter_eq_nil_iff_begun : pieces.filter (· != "") = [] ↔ begun pieces = false := by
  simp [begun]

/-- An empty piece leaves no trace. -/
theorem separated_snoc_empty : separated n (pieces ++ [""]) = separated n pieces := by
  simp [separated]

theorem begun_snoc_empty : begun (pieces ++ [""]) = begun pieces := by
  simp [begun]

/-- A piece that is not empty comes behind the text that it finds. -/
theorem separated_snoc {piece : String} (h : piece ≠ "") :
    separated n (pieces ++ [piece]) = lead n pieces ++ piece := by
  have hfilter : (pieces ++ [piece]).filter (· != "") = pieces.filter (· != "") ++ [piece] := by
    simp [h]
  rw [separated, hfilter, lead]
  cases hb : begun pieces with
  | false =>
    have hnil := (filter_eq_nil_iff_begun pieces).mpr hb
    simp [separated, hnil]
  | true =>
    have hne : pieces.filter (· != "") ≠ [] := fun hnil => by
      rw [(filter_eq_nil_iff_begun pieces).mp hnil] at hb
      cases hb
    rw [String.intercalate_append_of_ne_nil hne (by simp), String.intercalate_singleton,
      separated, if_pos rfl]

theorem begun_snoc {piece : String} (h : piece ≠ "") : begun (pieces ++ [piece]) = true := by
  simp [begun, h]

end Bodies

/-! ### Participants that only put text -/

namespace Participant

/-- A participant **only appends** when all that it does to a writer, where it
succeeds, is to put a piece behind the text that its level and indentation
determine. -/
def OnlyAppends (p : Participant) (piece : Nat → Indent → String) : Prop :=
  ∀ w w', p.emitter.write p.context w = .ok w' → w' = w.put (piece w.level w.indent)

/-- What a participant writes to a writer without text. -/
def alone (p : Participant) (level : Nat) (i : Indent) : String :=
  match p.emitter.write p.context { level, indent := i } with
  | .ok w => w.text
  | .error _ => ""

/-- A built-in emitter only appends, and what it writes alone. -/
theorem onlyAppends_builtin (b : Builtin) (c : Context) :
    OnlyAppends ⟨b.emitter, c⟩ (alone ⟨b.emitter, c⟩) := by
  intro w w' h
  rw [Builtin.write_eq, Outcome.map_eq_ok_iff] at h
  obtain ⟨s, hs, rfl⟩ := h
  have hwrite : b.emitter.write c { level := w.level, indent := w.indent } =
      .ok ((⟨"", w.level, w.indent⟩ : Writer).put s) := by
    rw [Builtin.write_eq, hs]
    rfl
  rw [alone, hwrite]
  simp

end Participant

/-! ### The run -/

namespace Bodies

open FileEmitter (writeBodies)

/-- **The run from the state after some pieces**: their text is there, and the
empty lines are due when one of them is not empty. -/
def after (n : Nat) (w : Writer) (pieces : List String) (ps : List Participant) :
    Except Failure Writer :=
  writeBodies n (begun pieces) ps (w.put (separated n pieces))

theorem after_nil_pieces (n : Nat) (w : Writer) (ps : List Participant) :
    after n w [] ps = writeBodies n false ps w := by
  simp [after, begun, separated, Writer.put]

variable {n : Nat} {w : Writer} {pieces : List String} {p : Participant} {ps : List Participant}

/-- The empty lines are put before it is known whether they are wanted. -/
theorem spaced_eq : (if begun pieces then (w.put (separated n pieces)).blankLines n
    else w.put (separated n pieces)) = w.put (lead n pieces) := by
  cases hb : begun pieces with
  | false => simp [lead, hb]
  | true => simp [lead, hb, Writer.blankLines, Writer.put, emptyLines, String.append_assoc]

theorem size_put_eq_iff (w : Writer) (s : String) : (w.put s).size = w.size ↔ s = "" := by
  rw [Writer.size, Writer.size, Writer.text_put, String.utf8ByteSize_append,
    ← String.utf8ByteSize_eq_zero_iff]
  omega

/-- **One step of the run**: a participant that writes a piece takes the run to
the state after one more piece, whether the piece is empty or not. -/
theorem after_cons {piece : String}
    (h : p.emitter.write p.context (w.put (lead n pieces)) =
      .ok ((w.put (lead n pieces)).put piece)) :
    after n w pieces (p :: ps) = after n w (pieces ++ [piece]) ps := by
  rw [after, writeBodies, spaced_eq, h]
  change (if ((w.put (lead n pieces)).put piece).size = (w.put (lead n pieces)).size then _
    else _) = _
  by_cases hp : piece = ""
  · subst hp
    rw [if_pos ((size_put_eq_iff _ _).mpr rfl), after, separated_snoc_empty, begun_snoc_empty]
    rfl
  · rw [if_neg fun hs => hp ((size_put_eq_iff _ _).mp hs), after, separated_snoc n pieces hp,
      begun_snoc pieces hp]
    simp [Writer.put, String.append_assoc]

/-- A participant that fails ends the run. -/
theorem after_cons_error {e : Failure}
    (h : p.emitter.write p.context (w.put (lead n pieces)) = .error e) :
    after n w pieces (p :: ps) = .error e := by
  rw [after, writeBodies, spaced_eq, h]
  rfl

/-- The pieces of participants at the level and indentation of a writer. -/
def texts (piece : Participant → Nat → Indent → String) (w : Writer) (ps : List Participant) :
    List String :=
  ps.map fun p => piece p w.level w.indent

/-- **The whole run**, from the state after some pieces. Either every
participant succeeds where it stands and the run ends after the pieces of all of
them, or the run ends with the failure of one, behind others that all
succeeded. -/
theorem after_run (piece : Participant → Nat → Indent → String)
    (h : ∀ p ∈ ps, p.OnlyAppends (piece p)) (pieces : List String) :
    (after n w pieces ps = .ok (w.put (separated n (pieces ++ texts piece w ps))) ∧
      ∀ before p behind, ps = before ++ p :: behind → ∃ w',
        p.emitter.write p.context (w.put (lead n (pieces ++ texts piece w before))) = .ok w') ∨
    ∃ before p behind e, ps = before ++ p :: behind ∧
      after n w pieces before = .ok (w.put (separated n (pieces ++ texts piece w before))) ∧
      p.emitter.write p.context (w.put (lead n (pieces ++ texts piece w before))) = .error e ∧
      after n w pieces ps = .error e := by
  induction ps generalizing pieces with
  | nil =>
    refine Or.inl ⟨by simp [after, writeBodies, texts], fun before p behind hps => ?_⟩
    simp at hps
  | cons p ps ih =>
    cases hw : p.emitter.write p.context (w.put (lead n pieces)) with
    | error e =>
      refine Or.inr ⟨[], p, ps, e, rfl, ?_, by simpa [texts] using hw, after_cons_error hw⟩
      simp [after, writeBodies, texts]
    | ok w' =>
      -- A successful participant is one step, and the rest of the run starts one piece later.
      have hpiece : w' = (w.put (lead n pieces)).put (piece p w.level w.indent) :=
        h p (List.mem_cons_self ..) _ _ hw
      rw [hpiece] at hw
      have hstep : ∀ qs, after n w pieces (p :: qs) =
          after n w (pieces ++ [piece p w.level w.indent]) qs := fun qs => after_cons hw
      have htexts : ∀ qs, pieces ++ texts piece w (p :: qs) =
          pieces ++ [piece p w.level w.indent] ++ texts piece w qs := fun qs => by simp [texts]
      have hps : ∀ q ∈ ps, q.OnlyAppends (piece q) := fun q hq => h q (List.mem_cons_of_mem p hq)
      rcases ih hps (pieces ++ [piece p w.level w.indent]) with
        ⟨hrun, hall⟩ | ⟨before, q, behind, e, rfl, hbefore, hfail, hrun⟩
      · refine Or.inl ⟨by rw [hstep, htexts, hrun], fun before q behind hsplit => ?_⟩
        cases before with
        | nil =>
          obtain ⟨rfl, -⟩ := List.cons.inj hsplit
          exact ⟨_, by simpa [texts] using hw⟩
        | cons r before =>
          obtain ⟨rfl, hps'⟩ := List.cons.inj hsplit
          rw [htexts]
          exact hall before q behind hps'
      · refine Or.inr ⟨p :: before, q, behind, e, rfl, ?_, ?_, ?_⟩
        · rw [hstep, htexts, hbefore]
        · rw [htexts, hfail]
        · rw [← hrun, hstep]

/-- **The run of built-in emitters**, where it comes to an end: each of them has
its piece, and the text is that of all pieces. -/
theorem exists_pieces_of_after (ts : List (Builtin × Context)) {w' : Writer} (pieces : List String)
    (h : after n w pieces (ts.map fun t => ⟨t.1.emitter, t.2⟩) = .ok w') :
    ∃ more, List.Forall₂ (fun t s => t.1.piece t.2 w.level w.indent = .ok s) ts more ∧
      w' = w.put (separated n (pieces ++ more)) := by
  induction ts generalizing pieces with
  | nil =>
    cases h
    exact ⟨[], .nil, by rw [List.append_nil]⟩
  | cons t ts ih =>
    have hwrite := t.1.write_eq t.2 (w.put (lead n pieces))
    rw [Writer.level_put, Writer.indent_put] at hwrite
    rw [List.map_cons] at h
    cases hpiece : t.1.piece t.2 w.level w.indent with
    | error e =>
      rw [hpiece] at hwrite
      rw [after_cons_error hwrite] at h
      cases h
    | ok s =>
      rw [hpiece] at hwrite
      rw [after_cons hwrite] at h
      obtain ⟨more, hmore, rfl⟩ := ih _ h
      exact ⟨s :: more, .cons hpiece hmore, by rw [List.append_assoc, List.singleton_append]⟩

end Bodies

/-! ### The law of separation -/

open Bodies

/-- The bodies of a file are a run from the state without pieces. -/
theorem FileEmitter.writeBody_eq_after (f : FileEmitter) (ps : List Participant) (w : Writer) :
    f.writeBody ps w = after f.settings.file.emitterSpacing w [] ps :=
  (after_nil_pieces _ w ps).symm

/-- **The law of separation.** When all participants only append, the bodies are
either the pieces that are not empty, in order, with the empty lines of
the *file* between any two of them and none around them; or they fail as the
first participant does that fails, behind others that all wrote. -/
theorem FileEmitter.writeBody_separates (f : FileEmitter) (ps : List Participant) (w : Writer)
    (piece : Participant → Nat → Indent → String) (h : ∀ p ∈ ps, p.OnlyAppends (piece p)) :
    (f.writeBody ps w =
        .ok (w.put (separated f.settings.file.emitterSpacing (texts piece w ps))) ∧
      ∀ before p behind, ps = before ++ p :: behind → ∃ w', p.emitter.write p.context
        (w.put (lead f.settings.file.emitterSpacing (texts piece w before))) = .ok w') ∨
    ∃ before p behind e, ps = before ++ p :: behind ∧
      f.writeBody before w =
        .ok (w.put (separated f.settings.file.emitterSpacing (texts piece w before))) ∧
      p.emitter.write p.context
        (w.put (lead f.settings.file.emitterSpacing (texts piece w before))) = .error e ∧
      f.writeBody ps w = .error e := by
  have hbody : ∀ qs, f.writeBody qs w = after f.settings.file.emitterSpacing w [] qs :=
    fun qs => (after_nil_pieces _ w qs).symm
  simp only [hbody]
  exact after_run piece h []

/-- A silent snippet between two others. The options of all three ask for five
empty lines, those of the file for two. -/
theorem writeBody_separates_snippets :
    (∀ p ∈ ["int a;", "  ", "int b;"].map fun text =>
        (⟨(Builtin.snippet { name := "raw", text }).emitter,
          ⟨default, { emitterSpacing := 5 }, .empty⟩⟩ : Participant), p.OnlyAppends p.alone) ∧
    FileEmitter.writeBody { settings := { file := { emitterSpacing := 2 } } }
        (["int a;", "  ", "int b;"].map fun text =>
          ⟨(Builtin.snippet { name := "raw", text }).emitter,
            ⟨default, { emitterSpacing := 5 }, .empty⟩⟩) { text := "top\n" } =
      .ok { text := "top\nint a;\n\n\nint b;\n" } := by
  have happend : ∀ p ∈ ["int a;", "  ", "int b;"].map fun text =>
      (⟨(Builtin.snippet { name := "raw", text }).emitter,
        ⟨default, { emitterSpacing := 5 }, .empty⟩⟩ : Participant), p.OnlyAppends p.alone := by
    intro p hp
    obtain ⟨text, -, rfl⟩ := List.mem_map.mp hp
    exact Participant.onlyAppends_builtin _ _
  refine ⟨happend, ?_⟩
  rcases FileEmitter.writeBody_separates { settings := { file := { emitterSpacing := 2 } } } _
    { text := "top\n" } Participant.alone happend with
    ⟨hrun, -⟩ | ⟨before, p, behind, e, hps, -, hfail, -⟩
  · rw [hrun]
    decide +kernel
  · -- No snippet fails, so this is not how the run ends.
    have hp : p ∈ before ++ p :: behind := by simp
    rw [← hps] at hp
    obtain ⟨text, -, rfl⟩ := List.mem_map.mp hp
    cases hfail

end SharpSource
