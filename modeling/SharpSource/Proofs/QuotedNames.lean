import SharpSource.Manifest.Location
import SharpSource.Proofs.Occurrences

/-!
# Names between quotes

The places of names in a manifest are looked for in its text, so a label is only
as good as the search: it should be all of the name and nothing else, between
two equal quotes, whatever characters stand around it.

A place is a span of bytes, and what is found is an occurrence of a pattern.
Between the two stands `Span.Reads`: the ends of a span are boundaries of
characters, and its bytes are those of a text. A text is read where it occurs
(`Span.reads_iff_occursIn`), and a text in two parts where its parts are read
side by side (`Span.reads_append_iff`). So a pattern of a lead, a quote, a name
and the same quote occurs exactly where the name stands between quotes behind
the lead (`Span.reads_between_iff`), and what is known of occurrences is known
of names (`Location.found_quotes_name`).
-/

namespace SharpSource

/-! ### What a span reads as -/

/-- **A span reads as a text** in a source when it takes as many bytes, from one
boundary of characters to another, and they are the same. -/
structure Span.Reads (span : Span) (source text : String) : Prop where
  start_isValid : String.Pos.Raw.IsValid source ⟨span.start⟩
  stop_isValid : String.Pos.Raw.IsValid source ⟨span.stop⟩
  stop_eq : span.stop = span.start + text.utf8ByteSize
  bytes_eq : source.toByteArray.extract span.start span.stop = text.toByteArray

namespace Span

variable {source text : String} {span : Span}

/-- **A span cuts the source in three.** -/
theorem reads_iff : span.Reads source text ↔ ∃ before after, source = before ++ (text ++ after) ∧
    span = ⟨before.utf8ByteSize, before.utf8ByteSize + text.utf8ByteSize⟩ := by
  constructor
  · intro h
    let first : source.Pos := ⟨⟨span.start⟩, h.start_isValid⟩
    let last : source.Pos := ⟨⟨span.stop⟩, h.stop_isValid⟩
    have hle : first ≤ last := by
      show span.start ≤ span.stop
      exact h.stop_eq ▸ Nat.le_add_right ..
    have hslice : (source.slice first last hle).copy = text := by
      rw [← String.extract_eq_copy_slice, ← String.toByteArray_inj, String.toByteArray_extract]
      exact h.bytes_eq
    obtain ⟨before, after, hsplits, -⟩ := String.copy_slice_eq_iff_splits.mp ⟨hle, hslice⟩
    have hstart : span.start = before.utf8ByteSize :=
      congrArg String.Pos.Raw.byteIdx hsplits.offset_eq_rawEndPos
    exact ⟨before, after, hsplits.eq_append, by rw [← hstart, ← h.stop_eq]⟩
  · rintro ⟨before, after, rfl, rfl⟩
    refine ⟨String.Pos.Raw.isValid_iff_exists_append.mpr ⟨before, text ++ after, rfl, rfl⟩,
      String.Pos.Raw.isValid_iff_exists_append.mpr ⟨before ++ text, after, ?_, ?_⟩, rfl, ?_⟩
    · rw [String.append_assoc]
    · exact String.Pos.Raw.ext String.utf8ByteSize_append.symm
    · rw [String.toByteArray_append, String.toByteArray_append]
      have hshift := ByteArray.extract_append_size_add' (i := 0) (j := text.utf8ByteSize)
        (a := before.toByteArray) (b := text.toByteArray ++ after.toByteArray)
        String.size_toByteArray.symm
      rw [Nat.add_zero] at hshift
      rw [hshift, ByteArray.extract_append_eq_left String.size_toByteArray.symm]

/-- **A text in two parts is read** where the second part is read behind the
first. -/
theorem reads_append_iff {start stop : Nat} {s t : String} :
    Reads ⟨start, stop⟩ source (s ++ t) ↔
      ∃ middle, Reads ⟨start, middle⟩ source s ∧ Reads ⟨middle, stop⟩ source t := by
  constructor
  · intro h
    obtain ⟨before, after, hsource, hspan⟩ := reads_iff.mp h
    cases hspan
    refine ⟨before.utf8ByteSize + s.utf8ByteSize,
      reads_iff.mpr ⟨before, t ++ after, by rw [hsource, String.append_assoc], rfl⟩,
      reads_iff.mpr ⟨before ++ s, after, by simp [hsource, String.append_assoc], ?_⟩⟩
    rw [String.utf8ByteSize_append, String.utf8ByteSize_append, Nat.add_assoc]
  · rintro ⟨middle, hs, ht⟩
    have hmiddle : middle = start + s.utf8ByteSize := hs.stop_eq
    have hstop : stop = middle + t.utf8ByteSize := ht.stop_eq
    refine ⟨hs.start_isValid, ht.stop_isValid, ?_, ?_⟩
    · rw [String.utf8ByteSize_append, ← Nat.add_assoc, ← hmiddle, ← hstop]
    · have hcut :
          source.toByteArray.extract start middle ++ source.toByteArray.extract middle stop =
            source.toByteArray.extract start stop := by
        rw [ByteArray.extract_append_extract, Nat.min_eq_left (by omega),
          Nat.max_eq_right (by omega)]
      rw [String.toByteArray_append, ← hs.bytes_eq, ← ht.bytes_eq, hcut]

/-- **A text is read where it occurs.** -/
theorem reads_iff_occursIn : span.Reads source text ↔
    Text.OccursIn text.toList source.toList span.start ∧
      span.stop = span.start + text.utf8ByteSize := by
  rw [reads_iff]
  constructor
  · rintro ⟨before, after, rfl, rfl⟩
    exact ⟨⟨before.toList, after.toList, by simp, (Text.utf8ByteSize_eq before).symm⟩, rfl⟩
  · rintro ⟨⟨before, after, hsource, hstart⟩, hstop⟩
    refine ⟨String.ofList before, String.ofList after, ?_, ?_⟩
    · rw [← String.toList_inj, hsource]
      simp
    · rw [Text.utf8ByteSize_ofList, hstart, ← hstop]

/-- **A span stands between two texts** when the one is read right before it and
the other right behind it. -/
def Between (span : Span) (source opening closing : String) : Prop :=
  (∃ start, Reads ⟨start, span.start⟩ source opening) ∧
    ∃ stop, Reads ⟨span.stop, stop⟩ source closing

/-- What stands behind a text stands behind each end of it. -/
theorem Between.of_append {lead opening closing : String}
    (h : span.Between source (lead ++ opening) closing) : span.Between source opening closing := by
  obtain ⟨⟨start, hopening⟩, hclosing⟩ := h
  obtain ⟨middle, -, hopening⟩ := reads_append_iff.mp hopening
  exact ⟨⟨middle, hopening⟩, hclosing⟩

/-- **A text is read between two others** where the three occur as one. -/
theorem reads_between_iff {opening closing : String} :
    span.Reads source text ∧ span.Between source opening closing ↔
      ∃ offset, Text.OccursIn (opening ++ text ++ closing).toList source.toList offset ∧
        span = ⟨offset + opening.utf8ByteSize,
          offset + opening.utf8ByteSize + text.utf8ByteSize⟩ := by
  obtain ⟨first, last⟩ := span
  constructor
  · rintro ⟨htext, ⟨start, hopening⟩, ⟨stop, hclosing⟩⟩
    have hwhole : Reads ⟨start, stop⟩ source (opening ++ text ++ closing) :=
      reads_append_iff.mpr ⟨last, reads_append_iff.mpr ⟨first, hopening, htext⟩, hclosing⟩
    have hfirst : first = start + opening.utf8ByteSize := hopening.stop_eq
    have hlast : last = first + text.utf8ByteSize := htext.stop_eq
    exact ⟨start, (reads_iff_occursIn.mp hwhole).1, by rw [← hfirst, ← hlast]⟩
  · rintro ⟨offset, hoccurs, hspan⟩
    have hwhole : Reads ⟨offset, offset + (opening ++ text ++ closing).utf8ByteSize⟩ source
        (opening ++ text ++ closing) := reads_iff_occursIn.mpr ⟨hoccurs, rfl⟩
    obtain ⟨stop, hinner, hclosing⟩ := reads_append_iff.mp hwhole
    obtain ⟨start, hopening, htext⟩ := reads_append_iff.mp hinner
    have hstart : start = offset + opening.utf8ByteSize := hopening.stop_eq
    have hstop : stop = start + text.utf8ByteSize := htext.stop_eq
    rw [← hstart, ← hstop] at hspan
    cases hspan
    exact ⟨htext, ⟨offset, hopening⟩, _, hclosing⟩

end Span

/-! ### What the searches find -/

namespace Location

/-- **A text quotes a name** behind a lead at a span that reads as the name,
with the lead and a quote right before it and the same quote right behind it. -/
def Quotes (lead source name : String) (span : Span) : Prop :=
  span.Reads source name ∧ ∃ quote ∈ quotes, span.Between source (lead ++ quote) quote

variable {lead source name quote : String} {span : Span}

/-- A name is quoted behind nothing when it is quoted behind a lead. -/
theorem Quotes.without_lead (h : Quotes lead source name span) : Quotes "" source name span := by
  obtain ⟨hname, quote, hquote, hbetween⟩ := h
  refine ⟨hname, quote, hquote, ?_⟩
  rw [String.empty_append]
  exact hbetween.of_append

theorem pattern_ne_empty (hquote : quote ∈ quotes) : lead ++ quote ++ name ++ quote ≠ "" := by
  intro h
  have hempty : quote = "" := (String.append_eq_empty_iff.mp h).2
  subst hempty
  exact absurd hquote (by decide)

/-- **What is found behind a lead** is the name between quotes. -/
theorem findAfter?_reads (h : findAfter? lead source name quote = some span) :
    span.Reads source name ∧ span.Between source (lead ++ quote) quote := by
  obtain ⟨offset, hfirst, rfl⟩ := Option.map_eq_some_iff.mp h
  refine Span.reads_between_iff.mpr ⟨offset, Text.occursIn_of_offsetOf? hfirst, ?_⟩
  rw [String.utf8ByteSize_append, ← Nat.add_assoc]

/-- **A name between quotes is found**, here or elsewhere. -/
theorem exists_findAfter? (hquote : quote ∈ quotes) (hname : span.Reads source name)
    (hbetween : span.Between source (lead ++ quote) quote) :
    ∃ found, findAfter? lead source name quote = some found := by
  obtain ⟨offset, hoccurs, -⟩ := Span.reads_between_iff.mp ⟨hname, hbetween⟩
  obtain ⟨first, hfirst, -⟩ := Text.exists_offsetOf?_le (pattern_ne_empty hquote) hoccurs
  exact ⟨_, Option.map_eq_some_iff.mpr ⟨first, hfirst, rfl⟩⟩

theorem quotes_of_findSome? (h : quotes.findSome? (findAfter? lead source name) = some span) :
    Quotes lead source name span := by
  obtain ⟨quote, hquote, hfound⟩ := List.exists_of_findSome?_eq_some h
  obtain ⟨hname, hbetween⟩ := findAfter?_reads hfound
  exact ⟨hname, quote, hquote, hbetween⟩

theorem Quotes.exists_findSome? (h : Quotes lead source name span) :
    ∃ found, quotes.findSome? (findAfter? lead source name) = some found := by
  obtain ⟨hname, quote, hquote, hbetween⟩ := h
  obtain ⟨found, hfound⟩ := exists_findAfter? hquote hname hbetween
  rw [← Option.isSome_iff_exists, List.findSome?_isSome_iff]
  exact ⟨quote, hquote, by rw [hfound]; rfl⟩

theorem quotes_of_find? (h : find? source name = some span) : Quotes "" source name span := by
  rcases Option.or_eq_some_iff.mp h with hlead | ⟨-, hbare⟩
  · exact (quotes_of_findSome? hlead).without_lead
  · exact quotes_of_findSome? hbare

/-- **The name behind its key is preferred.** -/
theorem exists_find?_of_key (h : Quotes "name = " source name span) :
    ∃ found, find? source name = some found ∧ Quotes "name = " source name found := by
  obtain ⟨found, hfound⟩ := h.exists_findSome?
  exact ⟨found, by rw [find?, hfound]; rfl, quotes_of_findSome? hfound⟩

/-- **Nothing is found only when there is nothing.** -/
theorem find?_eq_none_iff : find? source name = none ↔ ∀ span, ¬Quotes "" source name span := by
  constructor
  · intro h span hquotes
    obtain ⟨found, hfound⟩ := hquotes.exists_findSome?
    rw [find?, Option.or_eq_none_iff, hfound] at h
    exact absurd h.2 (Option.some_ne_none found)
  · intro h
    cases hfind : find? source name with
    | none => rfl
    | some span => exact absurd (quotes_of_find? hfind) (h span)

/-- All places are behind the key. -/
theorem quotes_of_mem_findAll (h : span ∈ findAll source name) :
    Quotes "name = " source name span := by
  obtain ⟨offset, hoffset, rfl⟩ := List.mem_map.mp h
  obtain ⟨k, hoccurs, rfl⟩ := Text.occursIn_of_mem_offsetsFrom hoffset
  rw [Nat.zero_add]
  obtain ⟨hname, hbetween⟩ := Span.reads_between_iff.mpr ⟨k, hoccurs, rfl⟩
  exact ⟨hname, "\"", by decide, hbetween⟩

/-- **All places are in order**, and none of them overlap. -/
theorem apart_findAll (source name : String) : (findAll source name).Pairwise fun span next =>
    span.start < next.start ∧ span.stop ≤ next.start := by
  have hsize :
      Text.byteLength ("name = \"" ++ name ++ "\"").toList = 8 + name.utf8ByteSize + 1 := by
    rw [← Text.utf8ByteSize_eq, String.utf8ByteSize_append, String.utf8ByteSize_append]
    rfl
  refine List.pairwise_map.mpr ((Text.apart_offsetsFrom _ _ _ _).1.imp fun {o o'} hle => ?_)
  rw [hsize] at hle
  show o + 8 < o' + 8 ∧ o + 8 + name.utf8ByteSize ≤ o' + 8
  omega

/-- **A place is passed over only** when what would be found there overlaps what
was found before. -/
theorem exists_mem_findAll (hname : span.Reads source name)
    (hbetween : span.Between source "name = \"" "\"") :
    ∃ found ∈ findAll source name, found.start ≤ span.start ∧ span.start ≤ found.stop + 8 := by
  obtain ⟨k, hoccurs, rfl⟩ := Span.reads_between_iff.mp ⟨hname, hbetween⟩
  obtain ⟨o, ho, hle, hlt⟩ :=
    Text.exists_mem_offsetsFrom (by simp) 0 (Nat.lt_succ_self _) hoccurs
  refine ⟨_, List.mem_map_of_mem ho, ?_⟩
  rw [← Text.utf8ByteSize_eq, String.utf8ByteSize_append, String.utf8ByteSize_append] at hlt
  have hkey : "name = \"".utf8ByteSize = 8 := rfl
  have hquote : "\"".utf8ByteSize = 1 := rfl
  show o + 8 ≤ k + _ ∧ k + _ ≤ o + 8 + _ + 8
  omega

/-- **What is found quotes the name.** Each place that the searches find is a
span of the text between boundaries of characters, reads as the name and stands
between two equal quotes. One place is found exactly when there is any, one
behind the key when there is such a one. All places are found in their order and
apart from each other, and one that the text gives behind the key in double
quotes is missing only where it overlaps another, with the eight bytes in front
of the name counted in. -/
theorem found_quotes_name (source name : String) :
    (∀ span, find? source name = some span ∨ span ∈ findAll source name →
      span.start ≤ span.stop ∧ span.stop ≤ source.utf8ByteSize ∧ Quotes "" source name span) ∧
    (find? source name = none ↔ ∀ span, ¬Quotes "" source name span) ∧
    (∀ span, Quotes "name = " source name span →
      ∃ found, find? source name = some found ∧ Quotes "name = " source name found) ∧
    ((findAll source name).Pairwise fun span next =>
      span.start < next.start ∧ span.stop ≤ next.start) ∧
    ∀ span : Span, span.Reads source name → span.Between source "name = \"" "\"" →
      ∃ found ∈ findAll source name, found.start ≤ span.start ∧ span.start ≤ found.stop + 8 := by
  refine ⟨fun span hfound => ?_, find?_eq_none_iff, fun span => exists_find?_of_key,
    apart_findAll source name, fun span => exists_mem_findAll⟩
  have hquotes : Quotes "" source name span := by
    rcases hfound with hone | hmem
    · exact quotes_of_find? hone
    · exact (quotes_of_mem_findAll hmem).without_lead
  exact ⟨hquotes.1.stop_eq ▸ Nat.le_add_right .., hquotes.1.stop_isValid.le_rawEndPos, hquotes⟩

/-- The place behind the key is preferred, whichever quotes it has; two letters
here take two bytes each. -/
example : find? "[\"Größe\"]\nname = 'Größe'" "Größe" = some ⟨20, 27⟩ := by decide

end Location

end SharpSource
