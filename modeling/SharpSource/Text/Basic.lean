import SharpSource.Text.Blank

/-!
# Cutting text

The operations on text that the rest of the library is written with: trimming
blanks, splitting at a character, finding a pattern, reading lines. Each works
on the list of characters of a text, where recursion and the lemmas on lists
apply; the versions on strings only convert.

Lengths and offsets count **bytes** of the encoding in UTF-8.
-/

namespace SharpSource.Text

/-- The number of bytes that a list of characters takes. -/
def byteLength : List Char → Nat
  | [] => 0
  | c :: cs => c.utf8Size + byteLength cs

/-! ### Trimming -/

/-- The characters without the blanks they end in. -/
def dropBlankEnd (cs : List Char) : List Char :=
  (cs.reverse.dropWhile isBlank).reverse

/-- The characters without the blanks at both ends. -/
def trimChars (cs : List Char) : List Char :=
  dropBlankEnd (cs.dropWhile isBlank)

/-- A text without the blanks it ends in. -/
def trimEnd (s : String) : String :=
  String.ofList (dropBlankEnd s.toList)

/-- A text without the blanks at both ends. -/
def trim (s : String) : String :=
  String.ofList (trimChars s.toList)

/-- A text is **blank** when it has no other characters than blanks. -/
def isBlankText (s : String) : Bool :=
  s.toList.all isBlank

/-- The characters without one last `c`. -/
def dropFinal (c : Char) (cs : List Char) : List Char :=
  if cs.getLast? = some c then cs.dropLast else cs

/-- The characters without any `c` they end in. -/
def dropFinals (c : Char) (cs : List Char) : List Char :=
  (cs.reverse.dropWhile (· == c)).reverse

/-! ### Splitting -/

/-- The **pieces** between the characters that satisfy `p`, the empty ones
included: always one piece more than there are such characters. -/
def pieces (p : Char → Bool) : List Char → List (List Char)
  | [] => [[]]
  | c :: cs =>
    if p c then [] :: pieces p cs
    else match pieces p cs with
      | [] => [[c]]
      | w :: ws => (c :: w) :: ws

theorem pieces_ne_nil (p : Char → Bool) (cs : List Char) : pieces p cs ≠ [] := by
  cases cs with
  | nil => simp [pieces]
  | cons c cs =>
    rw [pieces]
    split
    · simp
    · split <;> simp

/-- The pieces on both sides of a divider. -/
theorem pieces_append_cons {p : Char → Bool} {c : Char} (hc : p c = true) (cs cs' : List Char) :
    pieces p (cs ++ c :: cs') = pieces p cs ++ pieces p cs' := by
  induction cs with
  | nil => simp [pieces, hc]
  | cons d cs ih =>
    rw [List.cons_append, pieces, pieces, ih]
    obtain ⟨w, ws, hpieces⟩ := List.exists_cons_of_ne_nil (pieces_ne_nil p cs)
    rw [hpieces]
    split <;> rfl

/-- The pieces of a text between the characters `c`. -/
def split (c : Char) (s : String) : List String :=
  (pieces (· == c) s.toList).map String.ofList

/-- Turns the pieces between line feeds into lines: the piece after the last
line feed is a line only when it is not empty, and a line that ended in a
carriage return and a line feed has lost both. -/
def linesOfPieces : List (List Char) → List (List Char)
  | [] => []
  | [w] => if w.isEmpty then [] else [w]
  | w :: ws => dropFinal '\r' w :: linesOfPieces ws

/-- The **lines** of a text, each ended by a line feed, by both a carriage
return and a line feed, or by the end of the text. -/
def lines (s : String) : List String :=
  (linesOfPieces (pieces (· == '\n') s.toList)).map String.ofList

/-! ### Finding -/

/-- What follows `start` in a list of characters that starts so. -/
def afterStart? : (start cs : List Char) → Option (List Char)
  | [], cs => some cs
  | _ :: _, [] => none
  | p :: ps, c :: cs => if p = c then afterStart? ps cs else none

theorem eq_append_of_afterStart? {start cs rest : List Char}
    (h : afterStart? start cs = some rest) : cs = start ++ rest := by
  induction start generalizing cs with
  | nil => simpa [afterStart?] using h
  | cons p ps ih =>
    cases cs with
    | nil => simp [afterStart?] at h
    | cons c cs =>
      by_cases hc : p = c
      · simp [afterStart?, hc] at h
        simp [hc, ih h]
      · simp [afterStart?, hc] at h

@[simp] theorem afterStart?_append (start rest : List Char) :
    afterStart? start (start ++ rest) = some rest := by
  induction start with
  | nil => rfl
  | cons p ps ih => simpa [afterStart?] using ih

theorem isSome_afterStart?_iff {start cs : List Char} :
    (afterStart? start cs).isSome = true ↔ start <+: cs := by
  rw [Option.isSome_iff_exists]
  constructor
  · rintro ⟨rest, hrest⟩
    exact ⟨rest, (eq_append_of_afterStart? hrest).symm⟩
  · rintro ⟨rest, rfl⟩
    exact ⟨rest, afterStart?_append start rest⟩

/-- The characters before the first occurrence of a pattern, and those after
it. -/
def breakAt? (pattern : List Char) : List Char → Option (List Char × List Char)
  | [] => (afterStart? pattern []).map (([], ·))
  | c :: cs =>
    match afterStart? pattern (c :: cs) with
    | some rest => some ([], rest)
    | none => (breakAt? pattern cs).map fun r => (c :: r.1, r.2)

theorem eq_append_of_breakAt? {pattern cs before after : List Char}
    (h : breakAt? pattern cs = some (before, after)) : cs = before ++ (pattern ++ after) := by
  induction cs generalizing before with
  | nil =>
    simp only [breakAt?, Option.map_eq_some_iff, Prod.mk.injEq] at h
    obtain ⟨r, hr, rfl, rfl⟩ := h
    simpa using eq_append_of_afterStart? hr
  | cons c cs ih =>
    rw [breakAt?] at h
    split at h
    · rename_i rest hr
      obtain ⟨rfl, rfl⟩ : [] = before ∧ rest = after := by simpa using h
      simpa using eq_append_of_afterStart? hr
    · simp only [Option.map_eq_some_iff, Prod.mk.injEq] at h
      obtain ⟨⟨b, a⟩, hr, rfl, rfl⟩ := h
      simp [ih hr]

/-- The byte offset of the first occurrence of a pattern in a text. -/
def offsetOf? (pattern s : String) : Option Nat :=
  (breakAt? pattern.toList s.toList).map (byteLength ·.1)

/-- The byte offsets of the occurrences of a pattern that do not overlap, from
left to right and counted from `base`. The first argument bounds how many there
can be. -/
def offsetsFrom (pattern : List Char) : (fuel base : Nat) → List Char → List Nat
  | 0, _, _ => []
  | fuel + 1, base, cs =>
    match breakAt? pattern cs with
    | none => []
    | some (before, after) =>
      let here := base + byteLength before
      here :: offsetsFrom pattern fuel (here + byteLength pattern) after

/-- The byte offsets of all occurrences of a pattern that do not overlap. -/
def offsetsOf (pattern s : String) : List Nat :=
  offsetsFrom pattern.toList (s.toList.length + 1) 0 s.toList

/-- What follows `start` in a text that starts so. -/
def after? (start s : String) : Option String :=
  (afterStart? start.toList s.toList).map String.ofList

/-- Whether a text starts with another. -/
def startsWith (start s : String) : Bool :=
  (afterStart? start.toList s.toList).isSome

theorem startsWith_iff {start s : String} :
    startsWith start s = true ↔ start.toList <+: s.toList :=
  isSome_afterStart?_iff

/-! ### Lists of texts -/

/-- The texts of a list without repetition, each at its first place. -/
def distinct : List String → List String
  | [] => []
  | s :: rest => s :: (distinct rest).filter (· != s)

@[simp] theorem mem_distinct {s : String} {l : List String} : s ∈ distinct l ↔ s ∈ l := by
  induction l with
  | nil => simp [distinct]
  | cons a l ih =>
    by_cases h : s = a <;> simp [distinct, h, ih]

theorem nodup_distinct (l : List String) : (distinct l).Nodup := by
  induction l with
  | nil => simp [distinct]
  | cons a l ih =>
    rw [distinct, List.nodup_cons]
    exact ⟨by simp, ih.filter _⟩

/-- The texts of a list, trimmed, without the blank ones. -/
def trimmedNonempty (l : List String) : List String :=
  (l.map trim).filter (· != "")

end SharpSource.Text
