import SharpSource.Proofs.Nesting
import SharpSource.Proofs.Shift

/-!
# Where carriage returns can come from

What a file has around its bodies is made from the options, the specification
and the emitters by trimming texts, cutting them up and putting the parts
together again. None of this makes a character that was not there, apart from
the brackets, commas and keywords of the language. So the lines of a target
have no carriage returns when the texts that they are made from have none
(`FileEmitter.noReturn_targetLines`), and neither have the using directives
inside of a namespace (`Using.noReturn_block`).
-/

namespace SharpSource

/-! ### Texts -/

namespace Text

/-- A text **without carriage returns**. -/
def NoReturn (s : String) : Prop :=
  '\r' ∉ s.toList

instance (s : String) : Decidable (NoReturn s) :=
  inferInstanceAs (Decidable (¬ _))

namespace NoReturn

variable {s t : String}

theorem append (hs : NoReturn s) (ht : NoReturn t) : NoReturn (s ++ t) := by
  rw [NoReturn, String.toList_append, List.mem_append, not_or]
  exact ⟨hs, ht⟩

/-- A text with no other characters than one without carriage returns has none
either. -/
theorem mono (h : NoReturn s) {cs : List Char} (hcs : ∀ c ∈ cs, c ∈ s.toList) :
    NoReturn (String.ofList cs) := by
  rw [NoReturn, String.toList_ofList]
  exact fun hmem => h (hcs _ hmem)

theorem intercalate (hs : NoReturn s) {ls : List String} (h : ∀ l ∈ ls, NoReturn l) :
    NoReturn (s.intercalate ls) := by
  induction ls with
  | nil => exact List.not_mem_nil
  | cons l ls ih =>
    rw [List.forall_mem_cons] at h
    cases ls with
    | nil => exact h.1
    | cons l' ls =>
      rw [String.intercalate_cons_cons]
      exact (h.1.append hs).append (ih h.2)

theorem join {ls : List String} (h : ∀ l ∈ ls, NoReturn l) : NoReturn (String.join ls) := by
  induction ls with
  | nil => exact List.not_mem_nil
  | cons l ls ih =>
    rw [List.forall_mem_cons] at h
    rw [String.join_cons]
    exact h.1.append (ih h.2)

end NoReturn

/-! ### Cutting -/

theorem mem_of_mem_dropBlankEnd {cs : List Char} {c : Char} (h : c ∈ dropBlankEnd cs) : c ∈ cs := by
  rw [dropBlankEnd, List.mem_reverse] at h
  exact List.mem_reverse.mp ((List.dropWhile_sublist isBlank).mem h)

theorem mem_of_mem_trimChars {cs : List Char} {c : Char} (h : c ∈ trimChars cs) : c ∈ cs :=
  (List.dropWhile_sublist isBlank).mem (mem_of_mem_dropBlankEnd h)

theorem NoReturn.trim {s : String} (h : NoReturn s) : NoReturn (trim s) :=
  h.mono fun _ hc => mem_of_mem_trimChars hc

/-- Trimming a list of texts. -/
theorem noReturn_trimmedNonempty {ls : List String} (h : ∀ l ∈ ls, NoReturn l) :
    ∀ l ∈ trimmedNonempty ls, NoReturn l := by
  intro l hl
  obtain ⟨l', hl', rfl⟩ := List.mem_map.mp (List.mem_of_mem_filter hl)
  exact (h l' hl').trim

theorem NoReturn.lines {s : String} (h : NoReturn s) : ∀ l ∈ lines s, NoReturn l := by
  intro l hl
  obtain ⟨w, hw, rfl⟩ := List.mem_map.mp hl
  obtain ⟨v, hv, hchars⟩ := exists_of_mem_linesOfPieces hw
  exact h.mono fun c hc => mem_of_mem_pieces hv (hchars c hc)

end Text

open Text (NoReturn)

/-! ### Declarations -/

namespace Declaration

theorem mem_of_mem_cutLastLine {cs : List Char} {c : Char}
    (h : c ∈ (cutLastLine cs).1.getD [] ∨ c ∈ (cutLastLine cs).2) : c ∈ cs := by
  rw [cutLastLine] at h
  cases hdrop : cs.reverse.dropWhile (· != '\n') with
  | nil =>
    rw [hdrop] at h
    exact h.resolve_left List.not_mem_nil
  | cons d before =>
    rw [hdrop] at h
    rw [← List.mem_reverse]
    rcases h with hbefore | hlast
    · have hsub := List.dropWhile_sublist (l := cs.reverse) (· != '\n')
      rw [hdrop] at hsub
      exact hsub.mem (List.mem_cons_of_mem _ (List.mem_reverse.mp hbefore))
    · exact (List.takeWhile_sublist _).mem (List.mem_reverse.mp hlast)

/-- The lines that lead a declaration, and the one that declares. -/
theorem noReturn_splitLeading {declaration : String} (h : NoReturn declaration) :
    (∀ leading ∈ (splitLeading declaration).1, NoReturn leading) ∧
      NoReturn (splitLeading declaration).2 := by
  have hcut : ∀ c, c ∈ (cutLastLine (Text.dropBlankEnd declaration.toList)).1.getD [] ∨
      c ∈ (cutLastLine (Text.dropBlankEnd declaration.toList)).2 → c ∈ declaration.toList :=
    fun c hc => Text.mem_of_mem_dropBlankEnd (mem_of_mem_cutLastLine hc)
  constructor
  · intro leading hleading
    obtain ⟨before, hbefore, rfl⟩ := Option.map_eq_some_iff.mp hleading
    refine NoReturn.intercalate (by decide +kernel) fun l hl => ?_
    obtain ⟨l', hl', rfl⟩ := List.mem_map.mp hl
    have hchars : ∀ c ∈ before, c ∈ declaration.toList := fun c hc => by
      refine hcut c (Or.inl ?_)
      change (cutLastLine (Text.dropBlankEnd declaration.toList)).1 = some before at hbefore
      rwa [hbefore]
    exact ((h.mono hchars).lines l' hl').mono fun c hc => Text.mem_of_mem_dropFinals hc
  · exact h.mono fun c hc => hcut c (Or.inr (Text.mem_of_mem_dropFinals hc))

end Declaration

namespace BaseList

theorem noReturn_addition {head : List Char} {base : Option String} {interfaces : List String}
    (hbase : ∀ b ∈ base, NoReturn b) (h : ∀ t ∈ interfaces, NoReturn t) :
    NoReturn (addition head base interfaces) := by
  rw [addition]
  split
  · refine NoReturn.join fun l hl => ?_
    obtain ⟨t, ht, rfl⟩ := List.mem_map.mp hl
    exact NoReturn.append (by decide +kernel) (h t (List.mem_of_mem_filter ht))
  · have hlist : ∀ t ∈ Text.trimmedNonempty base.toList ++ interfaces, NoReturn t := by
      intro t ht
      rcases List.mem_append.mp ht with ht | ht
      · exact Text.noReturn_trimmedNonempty (fun b hb => hbase b (Option.mem_toList.mp hb)) t ht
      · exact h t ht
    split
    · exact List.not_mem_nil
    · exact NoReturn.append (by decide +kernel) (NoReturn.intercalate (by decide +kernel) hlist)

theorem noReturn_extend {declaration : String} {base : Option String} {interfaces : List String}
    (hdecl : NoReturn declaration) (hbase : ∀ b ∈ base, NoReturn b)
    (h : ∀ t ∈ interfaces, NoReturn t) : NoReturn (extend declaration base interfaces) := by
  have hcut : ∀ c ∈ (cutConstraints declaration.toList).1 ++
      (cutConstraints declaration.toList).2, c ∈ declaration.toList := by
    intro c hc
    rw [cutConstraints] at hc
    split at hc
    · rename_i head constraints hbreak
      rw [Text.eq_append_of_breakAt? hbreak]
      exact hc
    · simpa using hc
  rw [extend]
  refine (NoReturn.append (hdecl.mono fun c hc => ?_) (noReturn_addition hbase h)).append
    (hdecl.mono fun c hc => ?_)
  · exact hcut c (List.mem_append_left _ hc)
  · exact hcut c (List.mem_append_right _ hc)

end BaseList

/-! ### Attributes and usings -/

namespace Attribute

/-- All characters of some contents are among those that were read. -/
def ReadFrom (cs : List Char) (ws : List (List Char)) : Prop :=
  ∀ w ∈ ws, ∀ c ∈ w, c ∈ cs

theorem ReadFrom.mono {cs cs' : List Char} {ws : List (List Char)} (h : ReadFrom cs ws)
    (hcs : cs ⊆ cs') : ReadFrom cs' ws :=
  fun w hw c hc => hcs (h w hw c hc)

/-- A character that is taken over into the contents is still there. -/
theorem push_subset (c : Char) (content cs : List Char) :
    c :: content ++ cs ⊆ content ++ c :: cs :=
  List.perm_middle.symm.subset

theorem rest_subset (c : Char) (content cs : List Char) : cs ⊆ content ++ c :: cs :=
  fun _ hd => List.mem_append_right _ (List.mem_cons_of_mem c hd)

mutual

/-- **The contents of sections are read from the text**, and so is what follows
within a literal. -/
theorem readFrom_sectionsFrom : ∀ (depth : Nat) (content cs : List Char) (ws : List (List Char)),
    sectionsFrom depth content cs = some ws → ReadFrom (content ++ cs) ws
  | 0, content, [], ws, h => by
    rw [sectionsFrom] at h
    cases h
    exact fun w hw => absurd hw List.not_mem_nil
  | depth + 1, content, [], ws, h => by
    rw [sectionsFrom] at h
    cases h
  | 0, content, c :: cs, ws, h => by
    rw [sectionsFrom] at h
    split at h
    · exact (readFrom_sectionsFrom 1 [] cs ws h).mono (rest_subset c content cs)
    · split at h
      · exact (readFrom_sectionsFrom 0 [] cs ws h).mono (rest_subset c content cs)
      · cases h
  | depth + 1, content, c :: cs, ws, h => by
    unfold sectionsFrom at h
    split at h
    · exact (readFrom_literalFrom (depth + 1) (c :: content) cs ws h).mono
        (push_subset c content cs)
    split at h
    · exact (readFrom_sectionsFrom (depth + 2) (c :: content) cs ws h).mono
        (push_subset c content cs)
    split at h
    · cases depth with
      | zero =>
        -- The outermost bracket ends the section, and its contents come to the result.
        obtain ⟨rest, hrest, rfl⟩ := Option.map_eq_some_iff.mp h
        refine List.forall_mem_cons.mpr ⟨fun d hd => ?_, ?_⟩
        · exact List.mem_append_left _ (List.mem_reverse.mp hd)
        · exact (readFrom_sectionsFrom 0 [] cs rest hrest).mono (rest_subset c content cs)
      | succ depth =>
        exact (readFrom_sectionsFrom (depth + 1) (c :: content) cs ws h).mono
          (push_subset c content cs)
    · exact (readFrom_sectionsFrom (depth + 1) (c :: content) cs ws h).mono
        (push_subset c content cs)

theorem readFrom_literalFrom : ∀ (depth : Nat) (content cs : List Char) (ws : List (List Char)),
    literalFrom depth content cs = some ws → ReadFrom (content ++ cs) ws
  | depth, content, [], ws, h => by
    rw [literalFrom] at h
    cases h
  | depth, content, c :: cs, ws, h => by
    unfold literalFrom at h
    split at h
    · exact (readFrom_sectionsFrom depth (c :: content) cs ws h).mono (push_subset c content cs)
    split at h
    · split at h
      · cases h
      · rename_i e rest
        exact ((readFrom_literalFrom depth (e :: c :: content) rest ws h).mono
          (push_subset e (c :: content) rest)).mono (push_subset c content (e :: rest))
    · exact (readFrom_literalFrom depth (c :: content) cs ws h).mono (push_subset c content cs)

end

theorem noReturn_normalize {s : String} (h : NoReturn s) : ∀ a ∈ normalize s, NoReturn a := by
  have htrim := h.trim
  intro a ha
  rw [normalize] at ha
  split at ha
  · rename_i contents hcontents
    refine Text.noReturn_trimmedNonempty (fun l hl => ?_) a ha
    split at hcontents
    · obtain ⟨ws, hws, rfl⟩ := Option.map_eq_some_iff.mp hcontents
      obtain ⟨w, hw, rfl⟩ := List.mem_map.mp hl
      have hread := readFrom_sectionsFrom 0 [] _ ws hws
      rw [List.nil_append] at hread
      exact htrim.mono (hread w hw)
    · cases hcontents
  · split at ha
    · cases ha
    · exact List.mem_singleton.mp ha ▸ htrim

end Attribute

/-- Directives that are made of texts without carriage returns. -/
theorem Using.noReturn_block {inputs ds : List String} (h : ∀ s ∈ inputs, NoReturn s)
    (hds : block inputs = .ok ds) : ∀ d ∈ ds, NoReturn d := by
  intro d hd
  obtain ⟨directives, hdirectives, ⟨⟩⟩ := Outcome.bind_eq_ok_iff.mp hds
  rw [List.mem_mergeSort, Text.mem_distinct] at hd
  obtain ⟨s, hs, hnormal⟩ := Outcome.exists_of_mem_results hdirectives hd
  have htrim := (h s hs).trim
  have hend : ∀ t, NoReturn t →
      NoReturn (if t.toList.getLast? = some ';' then t else t ++ ";") := by
    intro t ht
    split
    · exact ht
    · exact ht.append (by decide)
  have hkeyword : NoReturn (if hasKeyword (Text.trim s) then Text.trim s
      else "using " ++ Text.trim s) := by
    split
    · exact htrim
    · exact NoReturn.append (by decide) htrim
  rw [normalize] at hnormal
  by_cases hempty : Text.trim s = ""
  · rw [if_pos hempty] at hnormal
    cases hnormal
  · rw [if_neg hempty] at hnormal
    exact Except.ok.inj hnormal ▸ hend _ hkeyword

/-! ### The lines of a target -/

namespace FileEmitter

theorem noReturn_attributeLines {o : FileOptions} {attributes : List String}
    (h : ∀ a ∈ attributes, NoReturn a) : ∀ l ∈ attributeLines o attributes, NoReturn l := by
  have hbracket : ∀ s, NoReturn s → NoReturn ("[" ++ s ++ "]") := fun s hs =>
    (NoReturn.append (by decide +kernel) hs).append (by decide +kernel)
  intro l hl
  rw [attributeLines] at hl
  split at hl
  · cases hl
  split at hl
  · rw [List.mem_singleton.mp hl]
    exact hbracket _ (NoReturn.intercalate (by decide +kernel) h)
  · obtain ⟨a, ha, rfl⟩ := List.mem_map.mp hl
    exact hbracket a (h a ha)

theorem noReturn_marker {a : Assembly} (hname : NoReturn a.name) (hversion : NoReturn a.version) :
    NoReturn a.marker := by
  unfold Assembly.marker
  refine (NoReturn.append (NoReturn.append (NoReturn.append (NoReturn.append ?_ hname) ?_)
    hversion) ?_)
  · decide +kernel
  · decide +kernel
  · decide +kernel

/-- **The lines of a target** have no carriage returns when nothing has that
they are made from. -/
theorem noReturn_targetLines {o : FileOptions} {spec : TypeSpec} {ps : List Participant}
    {target : String} (htarget : NoReturn target)
    (hattributes : ∀ a ∈ o.attributes ++ spec.attributes ++ contributions Emitter.attributes ps,
      NoReturn a)
    (hassembly : ∀ a ∈ o.assembly, NoReturn a.name ∧ NoReturn a.version)
    (hbase : ∀ b ∈ o.baseType, NoReturn b)
    (hinterfaces : ∀ t ∈ o.interfaces ++ contributions Emitter.interfaces ps, NoReturn t) :
    ∀ l ∈ targetLines o spec ps target, NoReturn l := by
  obtain ⟨hleading, hdeclaration⟩ := Declaration.noReturn_splitLeading htarget
  have hlisted : ∀ a ∈ attributesOf o spec ps, NoReturn a := by
    intro a ha
    rw [attributesOf, Text.mem_distinct, List.mem_flatMap] at ha
    obtain ⟨s, hs, ha⟩ := ha
    exact Attribute.noReturn_normalize (hattributes s hs) a ha
  have himplemented : ∀ t ∈ interfacesOf o ps, NoReturn t := by
    intro t ht
    rw [interfacesOf, Text.mem_distinct] at ht
    exact Text.noReturn_trimmedNonempty hinterfaces t ht
  intro l hl
  simp only [targetLines, List.mem_append, List.mem_singleton, Option.mem_toList] at hl
  rcases hl with ((hl | hl) | hl) | hl
  · exact hleading l hl
  · exact noReturn_attributeLines hlisted l hl
  · obtain ⟨a, ha, rfl⟩ := Option.map_eq_some_iff.mp hl
    exact noReturn_marker (hassembly a ha).1 (hassembly a ha).2
  · have hline := BaseList.noReturn_extend hdeclaration hbase himplemented
    exact hl ▸ hline

end FileEmitter

end SharpSource
