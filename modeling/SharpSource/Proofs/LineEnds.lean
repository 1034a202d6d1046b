import SharpSource.Proofs.Emission
import SharpSource.Proofs.NamespaceForms
import SharpSource.Proofs.WrittenLines

/-!
# Carriage returns at the ends of lines

A file is made of texts that come from everywhere, with the line ends that they
happen to have, and what is written between them ends in a line feed alone. A
carriage return in front of a line feed is then a matter of single lines: at
level zero a text is written as it stands and keeps what it has, deeper each of
its lines loses one carriage return at its end and keeps a second one, and an
indentation made of carriage returns brings its own to a line that is empty
(`FileEmitter.Line.KeepsReturn`).

That no other carriage return comes about where two texts meet is what is
carried through the layout: no text of a file ends in one, but for the braces at
its end each of them ends in a line feed (`Layout.Shows`). So the whole file has
a carriage return in front of a line feed exactly when one of its lines keeps
one (`FileEmitter.hasCrlf_generate_iff`).
-/

namespace SharpSource

/-! ### Carriage returns before line feeds -/

namespace Text

/-- A text **has a line end of two characters**: somewhere in it a carriage
return stands in front of a line feed. -/
def HasCrlf (s : String) : Prop :=
  ['\r', '\n'] <:+: s.toList

instance (s : String) : Decidable (HasCrlf s) :=
  inferInstanceAs (Decidable (_ <:+: _))

/-- A text that ends in something else brings no line end about with what
follows. -/
theorem hasCrlf_append_iff {s t : String} (h : s.toList.getLast? ≠ some '\r') :
    HasCrlf (s ++ t) ↔ HasCrlf s ∨ HasCrlf t := by
  rw [HasCrlf, HasCrlf, HasCrlf, String.toList_append]
  constructor
  · intro hboth
    rcases List.infix_append_iff.mp hboth with hs | ht | ⟨u, v, huv, hu, hv⟩
    · exact .inl hs
    · exact .inr ht
    · match u, huv with
      | [], huv => exact .inr (huv ▸ hv.isInfix)
      | [c], huv =>
        obtain ⟨rfl, -⟩ := List.cons.inj huv
        obtain ⟨before, hbefore⟩ := hu
        exact absurd (by rw [← hbefore]; simp) h
      | [c, d], huv =>
        obtain ⟨rfl, rfl, -⟩ : '\r' = c ∧ '\n' = d ∧ v = [] := by simpa using huv
        exact .inl hu.isInfix
      | _ :: _ :: _ :: _, huv => simp at huv
  · rintro (hs | ht)
    · exact hs.trans (List.prefix_append _ _).isInfix
    · exact ht.trans (List.suffix_append _ _).isInfix

theorem not_hasCrlf {s : String} (h : '\r' ∉ s.toList ∨ '\n' ∉ s.toList) : ¬HasCrlf s := by
  intro hs
  rcases h with h | h
  · exact h (hs.subset (by simp))
  · exact h (hs.subset (by simp))

/-- Behind a text without a line end of two characters, a line feed makes one of
a last carriage return. -/
theorem hasCrlf_ended_iff {s : String} (h : ¬HasCrlf s) :
    HasCrlf (s ++ "\n") ↔ s.toList.getLast? = some '\r' := by
  constructor
  · intro hs
    by_contra hlast
    rcases (hasCrlf_append_iff hlast).mp hs with hs | hnl
    · exact h hs
    · exact not_hasCrlf (.inl (by decide)) hnl
  · intro hlast
    obtain ⟨before, hbefore⟩ := List.getLast?_eq_some_iff.mp hlast
    rw [HasCrlf, String.toList_append, hbefore]
    exact ⟨before, [], by simp⟩

theorem hasCrlf_join_iff {ss : List String} (h : ∀ s ∈ ss, s.toList.getLast? ≠ some '\r') :
    HasCrlf (String.join ss) ↔ ∃ s ∈ ss, HasCrlf s := by
  induction ss with
  | nil => simpa using not_hasCrlf (.inl List.not_mem_nil)
  | cons s ss ih =>
    rw [List.forall_mem_cons] at h
    rw [String.join_cons, hasCrlf_append_iff h.1, ih h.2]
    simp

end Text

open Text (HasCrlf)

namespace Layout

open Writer (margin lineText)
open Bodies (emptyLines separated)

/-! ### Lines -/

/-- A text that is written at a level. -/
structure Line where
  level : Nat
  text : String

/-- **A text keeps a carriage return** when one of its lines does: at level zero
a line that ends in one, deeper a line that ends in two, or a line with nothing
in it behind an indentation of carriage returns. -/
def Line.KeepsReturn (i : Indent) (l : Line) : Prop :=
  ∃ w ∈ Text.pieces (· == '\n') l.text.toList,
    if l.level = 0 then w.getLast? = some '\r'
    else ['\r', '\r'] <:+ w ∨ i.char = '\r' ∧ (w = [] ∨ w = ['\r'])

instance (i : Indent) (l : Line) : Decidable (l.KeepsReturn i) := by
  unfold Line.KeepsReturn
  infer_instance

section

variable {i : Indent}

/-- What a line ends in that has the margin in front. -/
theorem getLast?_margin_append (level : Nat) (w : List Char) :
    (margin i (level + 1) ++ String.ofList w).toList.getLast? = some '\r' ↔
      w.getLast? = some '\r' ∨ i.char = '\r' ∧ w = [] := by
  have hwidth : (level + 1) * i.width ≠ 0 :=
    Nat.mul_ne_zero (Nat.succ_ne_zero level) (Nat.pos_iff_ne_zero.mp i.width_pos)
  rw [String.toList_append, toList_margin, String.toList_ofList, List.getLast?_append]
  rcases w.eq_nil_or_concat with rfl | ⟨w, c, rfl⟩
  · simp [List.getLast?_replicate, hwidth]
  · simp

theorem dropFinal_eq_nil_iff {w : List Char} :
    Text.dropFinal '\r' w = [] ↔ w = [] ∨ w = ['\r'] := by
  rw [Text.dropFinal]
  rcases w.eq_nil_or_concat with rfl | ⟨w, c, rfl⟩
  · simp
  · by_cases hc : c = '\r'
    · simp [hc]
    · simp [hc, List.append_eq_singleton_iff]

theorem getLast?_dropFinal_iff {w : List Char} :
    (Text.dropFinal '\r' w).getLast? = some '\r' ↔ ['\r', '\r'] <:+ w := by
  have htwo : ∀ v : List Char, ['\r', '\r'] <:+ v ++ ['\r'] ↔ v.getLast? = some '\r' := fun v => by
    rw [List.getLast?_eq_some_iff]
    constructor
    · rintro ⟨u, hu⟩
      refine ⟨u, ?_⟩
      rw [List.append_cons, List.append_left_inj] at hu
      exact hu.symm
    · rintro ⟨u, rfl⟩
      exact ⟨u, by simp⟩
  rw [Text.dropFinal]
  by_cases hlast : w.getLast? = some '\r'
  · obtain ⟨v, rfl⟩ := List.getLast?_eq_some_iff.mp hlast
    rw [if_pos hlast, List.dropLast_concat, htwo]
  · rw [if_neg hlast]
    refine iff_of_false hlast ?_
    rintro ⟨v, rfl⟩
    exact hlast (by simp)

/-- No line has a line feed, other than in its margin. -/
theorem not_hasCrlf_lineAt (level : Nat) {w : List Char} (hw : '\n' ∉ w) :
    ¬HasCrlf (lineAt i level w) := by
  have hplain : ∀ v : List Char, v ⊆ w → ¬HasCrlf (String.ofList v) := fun v hv =>
    Text.not_hasCrlf (.inr (by rw [String.toList_ofList]; exact fun hmem => hw (hv hmem)))
  rw [lineAt]
  split
  · exact hplain w (List.Subset.refl w)
  · have hdropped := hplain (Text.dropFinal '\r' w) fun c hc => Text.mem_of_mem_dropFinal hc
    by_cases hchar : i.char = '\r'
    · -- The margin is made of carriage returns, and then there is no line feed at all.
      refine Text.not_hasCrlf (.inr ?_)
      rw [String.toList_append, toList_margin, String.toList_ofList, hchar, List.mem_append]
      rintro (hmargin | hrest)
      · exact absurd (List.eq_of_mem_replicate hmargin) (by decide)
      · exact hw (Text.mem_of_mem_dropFinal hrest)
    · have hmargin : '\r' ∉ (margin i level).toList := by
        rw [toList_margin]
        exact fun hmem => hchar (List.eq_of_mem_replicate hmem).symm
      rw [Text.hasCrlf_append_iff fun hlast => hmargin (List.mem_of_getLast? hlast), not_or]
      exact ⟨Text.not_hasCrlf (.inl hmargin), hdropped⟩

theorem getLast?_lineAt_iff (level : Nat) (w : List Char) :
    (lineAt i level w).toList.getLast? = some '\r' ↔
      if level = 0 then w.getLast? = some '\r'
      else ['\r', '\r'] <:+ w ∨ i.char = '\r' ∧ (w = [] ∨ w = ['\r']) := by
  cases level with
  | zero => rw [lineAt, if_pos rfl, if_pos rfl, String.toList_ofList]
  | succ level =>
    rw [lineAt, if_neg (Nat.succ_ne_zero level), if_neg (Nat.succ_ne_zero level),
      getLast?_margin_append, getLast?_dropFinal_iff, dropFinal_eq_nil_iff]

theorem hasCrlf_ended_iff {ls : List String} (h : ∀ l ∈ ls, ¬HasCrlf l) :
    HasCrlf (ended ls) ↔ ∃ l ∈ ls, l.toList.getLast? = some '\r' := by
  rw [ended, Text.hasCrlf_join_iff (by simp)]
  simp only [List.mem_map, exists_exists_and_eq_and]
  refine exists_congr fun l => and_congr_right fun hl => ?_
  exact Text.hasCrlf_ended_iff (h l hl)

/-- **A text that is written at a level** has a line end of two characters when
it keeps a carriage return. -/
theorem hasCrlf_lineText_iff (level : Nat) (s : String) :
    HasCrlf (lineText i level s) ↔ Line.KeepsReturn i ⟨level, s⟩ := by
  rw [lineText_eq_ended, hasCrlf_ended_iff]
  · simp only [List.mem_map, exists_exists_and_eq_and]
    exact exists_congr fun w => and_congr_right fun _ => getLast?_lineAt_iff level w
  · intro l hl
    obtain ⟨w, hw, rfl⟩ := List.mem_map.mp hl
    exact not_hasCrlf_lineAt level (Text.not_mem_of_mem_pieces hw)

/-- The lines of nested declarations, the outermost first. -/
def nestedLines : (level : Nat) → List String → List Line
  | _, [] => []
  | level, d :: ds => ⟨level, d⟩ :: nestedLines (level + 1) ds

/-! ### Texts and their lines -/

/-- **A text shows some lines**: it does not end in a carriage return, and its
line ends are those that the lines keep. -/
structure Shows (i : Indent) (text : String) (lines : List Line) : Prop where
  ends : text.toList.getLast? ≠ some '\r'
  hasCrlf_iff : HasCrlf text ↔ ∃ l ∈ lines, l.KeepsReturn i

namespace Shows

variable {s t : String} {ls ls' : List Line}

/-- A text without carriage returns shows nothing. -/
theorem plain (h : '\r' ∉ s.toList) : Shows i s [] where
  ends hlast := h (List.mem_of_getLast? hlast)
  hasCrlf_iff := by simpa using Text.not_hasCrlf (.inl h)

theorem empty : Shows i "" [] :=
  plain (by decide)

theorem append (hs : Shows i s ls) (ht : Shows i t ls') : Shows i (s ++ t) (ls ++ ls') where
  ends := by
    rw [String.toList_append, List.getLast?_append]
    have ht := ht.ends
    cases hlast : t.toList.getLast? with
    | none => exact hs.ends
    | some c => rwa [hlast] at ht
  hasCrlf_iff := by
    rw [Text.hasCrlf_append_iff hs.ends, hs.hasCrlf_iff, ht.hasCrlf_iff]
    simp only [List.mem_append, or_and_right, exists_or]

/-- A text that shows nothing may stand behind another. -/
theorem append_plain (hs : Shows i s ls) (ht : Shows i t []) : Shows i (s ++ t) ls := by
  simpa using hs.append ht

theorem emptyLines (n : Nat) : Shows i (emptyLines n) [] := by
  refine plain ?_
  rw [Bodies.emptyLines, String.toList_ofList]
  exact fun hmem => absurd (List.eq_of_mem_replicate hmem) (by decide)

theorem lineText (level : Nat) (s : String) : Shows i (lineText i level s) [⟨level, s⟩] where
  ends := by
    rw [lineText_eq_ended, ended_eq_intercalate (by simpa using Text.pieces_ne_nil _ _)]
    simp
  hasCrlf_iff := by simp [hasCrlf_lineText_iff]

theorem linesText (level : Nat) (ls : List String) :
    Shows i (linesText i level ls) (ls.map (⟨level, ·⟩)) := by
  induction ls with
  | nil => exact empty
  | cons l ls ih =>
    rw [Layout.linesText, List.map_cons, String.join_cons]
    exact (lineText level l).append ih

/-- A brace on a line of its own shows nothing, whatever its margin is made
of. -/
theorem braceLine {brace : Char} (hreturn : brace ≠ '\r') (hfeed : brace ≠ '\n') (level : Nat) :
    Shows i (margin i level ++ String.singleton brace ++ "\n") [] := by
  have hpieces : Text.pieces (· == '\n') (String.singleton brace).toList = [[brace]] := by
    rw [String.toList_singleton]
    exact Text.pieces_eq_singleton (by simpa using hfeed.symm)
  have hline : Writer.lineText i level (String.singleton brace) =
      margin i level ++ String.singleton brace ++ "\n" :=
    lineText_eq_margin_append (by simpa using hfeed.symm) (by simpa using hreturn) level
  have hkeeps : ¬Line.KeepsReturn i ⟨level, String.singleton brace⟩ := by
    have htwo : ¬['\r', '\r'] <:+ [brace] := fun h => by simpa using h.length_le
    rw [Line.KeepsReturn, hpieces]
    simp [hreturn, htwo]
  rw [← hline]
  refine ⟨(lineText level _).ends, ?_⟩
  rw [(lineText level _).hasCrlf_iff]
  simpa using hkeeps

theorem openLine (level : Nat) : Shows i (openLine i level) [] :=
  braceLine (by decide) (by decide) level

theorem closeLine (level : Nat) : Shows i (closeLine i level) [] := by
  cases level with
  | zero => exact plain (s := "\x7d") (by decide)
  | succ level => exact braceLine (by decide) (by decide) (level + 1)

theorem closeLines (level : Nat) : Shows i (closeLines i level) [] := by
  induction level with
  | zero => exact empty
  | succ level ih => exact (closeLine level).append_plain ih

/-- **A block shows what its head and its body show.** -/
theorem block (level : Nat) {head body : String} (hhead : Shows i head ls)
    (hbody : Shows i body ls') :
    Shows i (block i level head body) (ls ++ ls') :=
  ((hhead.append_plain (openLine level)).append hbody).append_plain (closeLine level)

/-- **Nested declarations show** themselves, each one level below the one around
it, and what they nest around. -/
theorem nested {inner : Nat → String} {level : Nat} {ds : List String}
    (h : Shows i (inner (level + ds.length)) ls) :
    Shows i (nested i inner level ds) (nestedLines level ds ++ ls) := by
  induction ds generalizing level with
  | nil => exact h
  | cons d ds ih =>
    have hlevel : level + (d :: ds).length = level + 1 + ds.length := by
      rw [List.length_cons]
      omega
    rw [hlevel] at h
    exact (lineText level d).block level (ih h)

theorem join {ss : List String} {lss : List (List Line)} (h : List.Forall₂ (Shows i) ss lss) :
    Shows i (String.join ss) lss.flatten := by
  induction h with
  | nil => exact empty
  | cons hs _ ih =>
    rw [String.join_cons]
    exact hs.append ih

/-- Texts with empty lines between them, those that are empty left out, show
what the texts show. -/
theorem separated (n : Nat) {ss : List String} {lss : List (List Line)}
    (h : List.Forall₂ (Shows i) ss lss) : Shows i (separated n ss) lss.flatten := by
  induction h with
  | nil => exact empty
  | @cons s ls ss lss hs _ ih =>
    rw [List.flatten_cons]
    by_cases hempty : s = ""
    · subst hempty
      have hdrop : Bodies.separated n ("" :: ss) = "" ++ Bodies.separated n ss := by
        simp [Bodies.separated]
      rw [hdrop]
      exact hs.append ih
    · have hkeep : (s :: ss).filter (· != "") = s :: ss.filter (· != "") := by simp [hempty]
      rw [Bodies.separated] at ih ⊢
      rw [hkeep]
      cases hrest : ss.filter (· != "") with
      | nil =>
        rw [hrest] at ih
        have hlast : (Bodies.emptyLines n).intercalate [s] =
            s ++ (Bodies.emptyLines n).intercalate [] := by
          simp
        rw [hlast]
        exact hs.append ih
      | cons t ts =>
        rw [hrest] at ih
        rw [String.intercalate_cons_cons]
        exact (hs.append_plain (emptyLines n)).append ih

end Shows

end

end Layout

open Layout

/-! ### The lines of the built-in emitters -/

/-- The lines of a member: its attributes, and its declaration. -/
def Member.lines (m : Member) : List String :=
  m.attributeLines ++ m.declaration.toOption.toList

theorem Member.shows_text {i : Indent} {level : Nat} {m : Member} {s : String}
    (h : m.text i level = .ok s) : Shows i s (m.lines.map (⟨level, ·⟩)) := by
  obtain ⟨declared, hdeclared, rfl⟩ := Outcome.map_eq_ok_iff.mp h
  rw [lines, hdeclared]
  exact .linesText level _

namespace Builtin

open Emitter (equatableTarget? equalsLine equalsBody objectEqualsLine hashBody)

/-- **The lines of a built-in emitter** at a level. What is in a block of its
own is a level deeper. -/
def lines : Builtin → Context → (level : Nat) → Indent → List Line
  | properties, c, level, _ => c.spec.members.flatMap fun m => m.lines.map (⟨level, ·⟩)
  | equatable, c, level, i =>
    match equatableTarget? c.spec with
    | some d =>
      ⟨level, equalsLine c d⟩ :: (equalsBody i c d).map (⟨level + 1, ·⟩) ++
        [⟨level, objectEqualsLine c d⟩] ++
        ⟨level, "public override int GetHashCode()"⟩ :: (hashBody c).map (⟨level + 1, ·⟩)
    | none => []
  | snippet s, _, level, _ =>
    if Text.trimEnd s.text = "" then [] else [⟨level, Text.trimEnd s.text⟩]

/-- **A built-in emitter shows its lines.** -/
theorem shows_piece {b : Builtin} {c : Context} {level : Nat} {i : Indent} {s : String}
    (h : b.piece c level i = .ok s) : Shows i s (b.lines c level i) := by
  cases b with
  | properties =>
    obtain ⟨texts, htexts, rfl⟩ := Outcome.map_eq_ok_iff.mp h
    have hshown : List.Forall₂ (Shows i) texts
        (c.spec.members.map fun m => m.lines.map (⟨level, ·⟩)) := by
      rw [List.forall₂_map_right_iff]
      exact (Outcome.mapM_eq_ok_iff.mp htexts).flip.imp fun _ _ hm => Member.shows_text hm
    exact .join hshown
  | equatable =>
    cases h
    rw [lines]
    cases equatableTarget? c.spec with
    | none => exact .empty
    | some d =>
      have hequals := (Shows.lineText (i := i) level (equalsLine c d)).block level
        (.linesText (level + 1) (equalsBody i c d))
      have hhash := (Shows.lineText (i := i) level "public override int GetHashCode()").block level
        (.linesText (level + 1) (hashBody c))
      have hblank : Shows i "\n" [] := .plain (by decide)
      exact (((hequals.append_plain hblank).append
        (.lineText level (objectEqualsLine c d))).append_plain hblank).append hhash
  | snippet s =>
    cases h
    rw [lines, Snippet.piece]
    split
    · exact .empty
    · exact .lineText level _

end Builtin

/-- A built-in emitter that takes part in a file. -/
def Participant.ofBuiltin (t : Builtin × Context) : Participant :=
  ⟨t.1.emitter, t.2⟩

/-! ### The lines of a file -/

namespace FileEmitter

open Bodies (emptyLines separated texts)

/-- The lines that a file starts with. -/
def preambleLines (o : FileOptions) : List String :=
  [o.header.getD defaultHeader,
    "#nullable " ++ switchWord o.nullableAnnotations ++ " annotations",
    "#nullable " ++ switchWord o.nullableWarnings ++ " warnings"] ++
  if o.suppressedWarnings.isEmpty then []
  else ["#pragma warning disable " ++ ", ".intercalate o.suppressedWarnings]

/-- The lines that a namespace starts with. -/
def scopeLines (o : FileOptions) (inner : List String) : Option String → List Line
  | some ns =>
    ⟨0, if o.fileScopedNamespace then "namespace " ++ ns ++ ";" else "namespace " ++ ns⟩ ::
      inner.map (⟨baseLevel o (some ns), ·⟩)
  | none => []

theorem shows_usingsText (o : FileOptions) (i : Indent) (directives : List String) (level : Nat) :
    Shows i (usingsText o i directives level) (directives.map (⟨level, ·⟩)) := by
  rw [usingsText]
  by_cases h : directives = []
  · subst h
    exact .empty
  · rw [if_neg (by simpa using h), lineText_intercalate i level h]
    exact (Shows.linesText level directives).append_plain (.emptyLines _)

theorem shows_above (settings : Settings) (outer : List String) :
    Shows settings.indent (above settings outer)
      ((preambleLines settings.file ++ outer).map (⟨0, ·⟩)) := by
  have hpreamble : writePreamble settings.file { indent := settings.indent } =
      Writer.put { indent := settings.indent }
        (writePreamble settings.file { indent := settings.indent }).text := by
    rw [writePreamble]
    split <;> simp [Writer.put, Writer.line, Writer.blankLine, Writer.blankLines]
  rw [above, hpreamble, writeUsings_eq, List.map_append]
  refine Shows.append ?_ (shows_usingsText _ _ outer 0)
  have hline : ∀ s, Shows settings.indent (s ++ "\n") [⟨0, s⟩] := Shows.lineText 0
  have hblank : Shows settings.indent "\n" [] := .plain (by decide)
  have hspacing : Shows settings.indent (emptyLines settings.file.sectionSpacing) [] :=
    .emptyLines _
  have hstart := ((((hline (settings.file.header.getD defaultHeader)).append_plain hblank).append
    (hline ("#nullable " ++ switchWord settings.file.nullableAnnotations ++ " annotations"))).append
    (hline ("#nullable " ++ switchWord settings.file.nullableWarnings ++ " warnings"))).append_plain
    hspacing
  rw [writePreamble, preambleLines]
  by_cases hwarnings : settings.file.suppressedWarnings.isEmpty = true
  · rw [if_pos hwarnings, if_pos hwarnings]
    simpa [Writer.lineText, emptyLines] using hstart
  · rw [if_neg hwarnings, if_neg hwarnings]
    have hpragma := (hline ("#pragma warning disable " ++
      ", ".intercalate settings.file.suppressedWarnings)).append_plain hspacing
    simpa [Writer.lineText, emptyLines, String.append_assoc] using hstart.append hpragma

/-- **Above the declarations** a file shows its preamble, its usings and its
namespace. -/
theorem shows_writeTop (f : FileEmitter) (ns : Option String) (outer inner : List String) :
    Shows f.settings.indent (f.writeTop ns outer inner).text
      ((preambleLines f.settings.file ++ outer).map (⟨0, ·⟩) ++
        scopeLines f.settings.file inner ns) := by
  cases ns with
  | none =>
    rw [scopeLines, List.append_nil]
    exact shows_above f.settings outer
  | some ns =>
    have hline : ∀ s, Shows f.settings.indent (s ++ "\n") [⟨0, s⟩] := Shows.lineText 0
    rw [text_writeTop, scopeLines, baseLevel]
    refine (shows_above f.settings outer).append ?_
    by_cases hform : f.settings.file.fileScopedNamespace = true
    · rw [if_pos hform, if_pos hform, if_pos hform]
      have hname := (hline ("namespace " ++ ns ++ ";")).append_plain
        (.emptyLines f.settings.file.sectionSpacing)
      simpa [String.append_assoc] using hname.append (shows_usingsText _ _ inner 0)
    · rw [if_neg hform, if_neg hform, if_neg hform]
      have hname := (hline ("namespace " ++ ns)).append_plain (.openLine 0)
      have hbrace : "\n" ++ openLine f.settings.indent 0 = "\n\x7b\n" := rfl
      rw [String.append_assoc, hbrace] at hname
      simpa using hname.append (shows_usingsText _ _ inner 1)

/-- **The bodies of built-in emitters** show the lines of all of them. -/
theorem shows_bodies {f : FileEmitter} {taking : List (Builtin × Context)} {w w' : Writer}
    (h : f.writeBody (taking.map .ofBuiltin) w = .ok w') :
    ∃ bodies, w' = w.put bodies ∧
      Shows w.indent bodies (taking.flatMap fun t => t.1.lines t.2 w.level w.indent) := by
  rw [writeBody_eq_after] at h
  obtain ⟨pieces, hpieces, rfl⟩ := Bodies.exists_pieces_of_after taking [] h
  refine ⟨_, rfl, Shows.separated _ ?_⟩
  rw [List.nil_append, List.forall₂_map_right_iff]
  exact hpieces.flip.imp fun _ _ hpiece => Builtin.shows_piece hpiece

/-- The built-in emitters of a file that have options, each with what it
sees. -/
def settledFor (settings : Settings) (bs : List (Builtin × Option FileOptions)) (spec : TypeSpec)
    (siblings : Siblings) : List (Builtin × Context) :=
  bs.filterMap fun b => ((slotOf settings b).settled? settings.file).map fun o =>
    (b.1, ⟨spec, o, siblings⟩)

/-- **The built-in emitters that take part** in a file, each with what it
sees. -/
def taking (settings : Settings) (bs : List (Builtin × Option FileOptions)) (spec : TypeSpec)
    (siblings : Siblings) : List (Builtin × Context) :=
  (settledFor settings bs spec siblings).filter fun t => t.1.emitter.accepts t.2

theorem participants_eq_taking {settings : Settings} {fileName : Option (TypeSpec → String)}
    {bs : List (Builtin × Option FileOptions)} {spec : TypeSpec} {siblings : Siblings}
    {ps : List Participant}
    (h : (ofBuiltins settings fileName bs).participants spec siblings = .ok ps) :
    ps = (taking settings bs spec siblings).map .ofBuiltin := by
  obtain ⟨all, hall, ⟨⟩⟩ := Outcome.bind_eq_ok_iff.mp h
  have hsettled : all = (settledFor settings bs spec siblings).map .ofBuiltin := by
    clear h
    rw [Outcome.mapM_eq_ok_iff, ofBuiltins_eq, List.forall₂_map_left_iff] at hall
    rw [settledFor]
    induction hall with
    | nil => rfl
    | cons hp _ ih =>
      obtain ⟨o, ho, rfl⟩ := participant_eq_ok_iff.mp hp
      replace ho : (slotOf settings _).settled? settings.file = some o := ho
      rw [List.filterMap_cons, ho, ih]
      rfl
  rw [hsettled, taking, List.filter_map]
  rfl

/-- **The lines of a file** from the top to the bottom, each with the level that
it is written at: the preamble and the outer usings, the namespace and the inner
usings, the declarations around the target, the target with all that leads it,
and the lines of the bodies. -/
def fileLines (settings : Settings) (spec : TypeSpec) (taking : List (Builtin × Context))
    (outer inner : List String) (target : String) (containing : List String) : List Line :=
  let o := settings.file
  let level := baseLevel o spec.ns + containing.length
  (preambleLines o ++ outer).map (⟨0, ·⟩) ++ scopeLines o inner spec.ns ++
    (nestedLines (baseLevel o spec.ns) containing.reverse ++
      ((targetLines o spec (taking.map .ofBuiltin) target).map (⟨level, ·⟩) ++
        taking.flatMap fun t => t.1.lines t.2 (level + 1) settings.indent))

/-- **A file shows its lines**, when its bodies show theirs. -/
theorem shows_content {f : FileEmitter} {spec : TypeSpec} {taking : List (Builtin × Context)}
    (outer inner : List String) (target : String) {containing : List String} {bodies : String}
    (h : Shows f.settings.indent bodies (taking.flatMap fun t =>
      t.1.lines t.2 (baseLevel f.settings.file spec.ns + containing.length + 1)
        f.settings.indent)) :
    Shows f.settings.indent ((f.writeTop spec.ns outer inner).text ++
        (nested f.settings.indent (f.targetBlock spec (taking.map .ofBuiltin) target bodies)
            (baseLevel f.settings.file spec.ns) containing.reverse ++
          closeLines f.settings.indent (baseLevel f.settings.file spec.ns)))
      (fileLines f.settings spec taking outer inner target containing) := by
  refine (f.shows_writeTop spec.ns outer inner).append (Shows.append_plain ?_ (.closeLines _))
  refine Shows.nested ?_
  rw [List.length_reverse]
  exact (Shows.linesText _ _).block _ h

/-- **A generated file has a line end of two characters exactly when one of its
lines keeps a carriage return.** -/
theorem hasCrlf_generate_iff {settings : Settings} {fileName : Option (TypeSpec → String)}
    {bs : List (Builtin × Option FileOptions)} {spec : TypeSpec} {siblings : Siblings}
    {target : String} {containing : List String} {file : SourceFile}
    (hspec : spec.declarations = target :: containing)
    (h : (ofBuiltins settings fileName bs).generate spec siblings = .ok file) :
    let ps := (taking settings bs spec siblings).map Participant.ofBuiltin
    ∃ outer inner,
      (ofBuiltins settings fileName bs).participants spec siblings = .ok ps ∧
      Using.block (settings.file.outerUsings ++ contributions Emitter.outerUsings ps) = .ok outer ∧
      innerUsings settings.file spec ps = .ok inner ∧
      (HasCrlf file.content ↔
        ∃ l ∈ fileLines settings spec (taking settings bs spec siblings) outer inner target
          containing, l.KeepsReturn settings.indent) := by
  intro ps
  obtain ⟨target', containing', ps', outer, inner, w, hdecl, hps', houter, hinner, hbody, rfl⟩ :=
    generate_eq_ok_iff.mp h
  obtain ⟨rfl, rfl⟩ := List.cons.inj (hdecl.symm.trans hspec)
  obtain rfl : ps' = ps := participants_eq_taking hps'
  have hsettings : (ofBuiltins settings fileName bs).settings = settings := by rw [ofBuiltins_eq]
  refine ⟨outer, inner, hps', by rwa [hsettings] at houter, by rwa [hsettings] at hinner, ?_⟩
  obtain ⟨bodies, rfl, hbodies⟩ := shows_bodies hbody
  rw [writeHead_eq] at hbodies
  have hshows := shows_content outer inner target' hbodies
  rw [text_closeAll]
  rw [hsettings] at hshows ⊢
  exact hshows.hasCrlf_iff

/-- In a block for its namespace a class has the line ends of its snippet and
its comment no more. -/
theorem hasCrlf_generate_iff_snippet :
    ∃ file, (ofBuiltins {} none
        [(.snippet { name := "raw", text := "int a;\r\nint b;\r\n" }, none)]).generate
          { ns := some "Shop", declarations := ["/// <summary/>\r\npublic class Order"],
            target := .ref (.ofName "Shop.Order" .classType) } .empty = .ok file ∧
      ¬HasCrlf file.content := by
  have hfile : (ofBuiltins {} none
      [(.snippet { name := "raw", text := "int a;\r\nint b;\r\n" }, none)]).generate
        { ns := some "Shop", declarations := ["/// <summary/>\r\npublic class Order"],
          target := .ref (.ofName "Shop.Order" .classType) } .empty = .ok ⟨"Order.g.cs",
      "// <auto-generated/>\n\n#nullable enable annotations\n#nullable disable warnings\n\n" ++
        "namespace Shop\n\x7b\n    /// <summary/>\n    public class Order\n    \x7b\n" ++
        "        int a;\n        int b;\n    \x7d\n\x7d"⟩ := by
    decide +kernel
  obtain ⟨outer, inner, -, houter, hinner, hiff⟩ := hasCrlf_generate_iff rfl hfile
  have hnone : Using.block [] = .ok [] := by decide +kernel
  obtain rfl : [] = outer := Except.ok.inj (hnone.symm.trans houter)
  obtain rfl : [] = inner := Except.ok.inj (hnone.symm.trans hinner)
  refine ⟨_, hfile, ?_⟩
  rw [hiff]
  decide +kernel

/-- A header is written at level zero, and the line end in it stays. -/
theorem hasCrlf_of_header :
    ∃ file, (ofBuiltins { file := { header := some "// a\r\n// b" } } none []).generate
        { ns := none, declarations := ["public class Order"],
          target := .ref (.ofName "Order" .classType) } .empty = .ok file ∧
      HasCrlf file.content :=
  ⟨⟨"Order.g.cs", "// a\r\n// b\n\n#nullable enable annotations\n#nullable disable warnings\n\n" ++
      "public class Order\n\x7b\n\x7d"⟩, by decide +kernel, by decide +kernel⟩

end FileEmitter

end SharpSource
