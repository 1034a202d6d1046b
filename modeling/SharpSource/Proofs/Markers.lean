import Mathlib.Data.List.Basic
import SharpSource.Options.Basic
import SharpSource.Toml.Lexeme

/-!
# Markers that are read back

A target is marked with an attribute whose two arguments are string literals,
the name and the version of an assembly between quotes, just as they are. A
literal has a value, and reading the line back is taking the values of both.

A **plain** character stands for itself. An escape is wider than what it stands
for, always by at least one code unit (`Literal.Escape.length_lt`), so a literal
is as wide as its value only when all of it is plain
(`Literal.Spells.plain_or_lt`). The marker leaves no room for that: around the
two texts there is a single blank to spare. An escape would have to be paid for
with it, but the blank stands between the literals, and is there
(`Assembly.isPlain_of_reads`). So a marker is read back exactly when name and
version are plain.
-/

namespace SharpSource

namespace Literal

/-! ### Values -/

/-- The code units of a code point: it is one itself, or has a pair. -/
def unitsOf (code : Nat) : List Nat :=
  if code < 0x10000 then [code]
  else [0xd800 + (code - 0x10000) / 0x400, 0xdc00 + (code - 0x10000) % 0x400]

/-- The code units of a text. -/
def units (cs : List Char) : List Nat :=
  cs.flatMap fun c => unitsOf c.toNat

theorem units_cons (c : Char) (cs : List Char) : units (c :: cs) = unitsOf c.toNat ++ units cs :=
  List.flatMap_cons

theorem units_append (cs cs' : List Char) : units (cs ++ cs') = units cs ++ units cs' :=
  List.flatMap_append

theorem length_unitsOf_pos (code : Nat) : 0 < (unitsOf code).length := by
  rw [unitsOf]
  split <;> simp

theorem length_unitsOf_le (code : Nat) : (unitsOf code).length ≤ 2 := by
  rw [unitsOf]
  split <;> simp

theorem length_le_units (cs : List Char) : cs.length ≤ (units cs).length := by
  induction cs with
  | nil => exact Nat.zero_le _
  | cons c cs ih =>
    have hpos := length_unitsOf_pos c.toNat
    rw [units_cons, List.length_cons, List.length_append]
    omega

/-- Of two texts that start a common one, those of the same width are the
same. -/
theorem eq_of_width {xs ys rest rest' : List Char} (h : xs ++ rest = ys ++ rest')
    (hwidth : (units xs).length = (units ys).length) : xs = ys := by
  have hnil : ∀ {zs ts : List Char}, (units (zs ++ ts)).length = (units zs).length → ts = [] := by
    intro zs ts hsame
    have hle := length_le_units ts
    rw [units_append, List.length_append] at hsame
    exact List.eq_nil_of_length_eq_zero (by omega)
  rcases List.append_eq_append_iff.mp h with ⟨ts, rfl, -⟩ | ⟨ts, rfl, -⟩
  · rw [hnil hwidth.symm, List.append_nil]
  · rw [hnil hwidth, List.append_nil]

/-! ### Literals -/

/-- Whether a character ends a line. -/
def isLineEnd (c : Char) : Bool :=
  [0xa, 0xd, 0x85, 0x2028, 0x2029].contains c.toNat

/-- **A plain character** is no quote and no backslash, and does not end a
line. -/
def IsPlain (c : Char) : Prop :=
  c ≠ '"' ∧ c ≠ '\\' ∧ isLineEnd c = false

instance (c : Char) : Decidable (IsPlain c) :=
  inferInstanceAs (Decidable (_ ∧ _))

/-- The escapes of one character, with what they stand for. -/
def simpleEscapes : List (Char × Nat) :=
  [('\'', 0x27), ('"', 0x22), ('\\', 0x5c), ('0', 0x0), ('a', 0x7), ('b', 0x8), ('e', 0x1b),
    ('f', 0xc), ('n', 0xa), ('r', 0xd), ('t', 0x9), ('v', 0xb)]

/-- The number that hexadecimal digits spell. -/
def hex? (ds : List Char) : Option Nat :=
  (ds.mapM (Toml.digitIn? 16)).map (Toml.ofDigits 16)

/-- **An escape**, from the character behind the backslash on, and its code
units, in front of some rest of the literal. One of up to four digits goes on as
far as there are digits. -/
inductive Escape : List Char → List Nat → (rest : List Char) → Prop
  | simple {c : Char} {code : Nat} {rest : List Char} (h : (c, code) ∈ simpleEscapes) :
      Escape [c] [code] rest
  | upTo {ds : List Char} {code : Nat} {rest : List Char} (hsome : ds ≠ []) (hfew : ds.length ≤ 4)
      (hcode : hex? ds = some code)
      (hends : ds.length = 4 ∨ ∀ c, rest.head? = some c → Toml.digitIn? 16 c = none) :
      Escape ('x' :: ds) [code] rest
  | short {ds : List Char} {code : Nat} {rest : List Char} (hlength : ds.length = 4)
      (hcode : hex? ds = some code) : Escape ('u' :: ds) [code] rest
  | long {ds : List Char} {code : Nat} {rest : List Char} (hlength : ds.length = 8)
      (hcode : hex? ds = some code) (hrange : code ≤ 0x10ffff) :
      Escape ('U' :: ds) (unitsOf code) rest

/-- **What stands between the quotes of a literal**, and the code units of its
value. -/
inductive Spells : List Char → List Nat → Prop
  | nil : Spells [] []
  | plain {c : Char} {cs : List Char} {us : List Nat} (hplain : IsPlain c) :
      Spells cs us → Spells (c :: cs) (unitsOf c.toNat ++ us)
  | escape {e cs : List Char} {us us' : List Nat} (hescape : Escape e us' cs) :
      Spells cs us → Spells ('\\' :: (e ++ cs)) (us' ++ us)

variable {cs e : List Char} {us us' : List Nat}

/-- **An escape is wider than what it stands for**, with its backslash. -/
theorem Escape.length_lt (h : Escape e us cs) : us.length < (units ('\\' :: e)).length := by
  have hlength : us.length ≤ e.length := by
    cases h with
    | simple => exact Nat.le_refl 1
    | upTo => exact Nat.succ_le_succ (Nat.zero_le _)
    | short => exact Nat.succ_le_succ (Nat.zero_le _)
    | @long ds code _ hlength =>
      have hle := length_unitsOf_le code
      rw [List.length_cons]
      omega
  have hwidth := length_le_units ('\\' :: e)
  rw [List.length_cons] at hwidth
  omega

/-- **A literal is as wide as its value** only where all of it is plain, and
then it is its value. -/
theorem Spells.plain_or_lt (h : Spells cs us) :
    (∀ c ∈ cs, IsPlain c) ∧ us = units cs ∨ us.length < (units cs).length := by
  induction h with
  | nil => exact .inl ⟨by simp, rfl⟩
  | @plain c cs us hplain _ ih =>
    rw [units_cons, List.length_append, List.length_append, List.forall_mem_cons]
    rcases ih with ⟨hall, rfl⟩ | hlt
    · exact .inl ⟨⟨hplain, hall⟩, rfl⟩
    · exact .inr (Nat.add_lt_add_left hlt _)
  | @escape e cs us us' hescape _ ih =>
    have hlt := hescape.length_lt
    have hle : us.length ≤ (units cs).length := by
      rcases ih with ⟨-, rfl⟩ | hlt
      · exact Nat.le_refl _
      · exact Nat.le_of_lt hlt
    rw [← List.cons_append, units_append, List.length_append, List.length_append]
    exact .inr (by omega)

/-- Plain characters spell themselves. -/
theorem spells_of_plain (h : ∀ c ∈ cs, IsPlain c) : Spells cs (units cs) := by
  induction cs with
  | nil => exact .nil
  | cons c cs ih =>
    rw [List.forall_mem_cons] at h
    exact .plain h.1 (ih h.2)

/-- A literal that is ended where plain characters are, is these characters. -/
theorem Spells.eq_of_plain (h : Spells cs us) {ps rest rest' : List Char}
    (hps : ∀ c ∈ ps, IsPlain c) (heq : ps ++ '"' :: rest = cs ++ '"' :: rest') :
    cs = ps ∧ us = units ps := by
  induction h generalizing ps with
  | nil =>
    cases ps with
    | nil => exact ⟨rfl, rfl⟩
    | cons p ps => exact absurd (List.cons.inj heq).1 (hps p (List.mem_cons_self ..)).1
  | @plain c cs us hplain _ ih =>
    cases ps with
    | nil => exact absurd (List.cons.inj heq).1.symm hplain.1
    | cons p ps =>
      obtain ⟨rfl, htail⟩ := List.cons.inj heq
      obtain ⟨rfl, rfl⟩ := ih (List.forall_mem_cons.mp hps).2 htail
      exact ⟨rfl, rfl⟩
  | escape _ _ _ =>
    cases ps with
    | nil => exact absurd (List.cons.inj heq).1 (by decide)
    | cons p ps => exact absurd (List.cons.inj heq).1 (hps p (List.mem_cons_self ..)).2.1

/-! ### Between the tokens -/

/-- **A gap** between two tokens: blanks, and comments between slashes with
stars. -/
inductive Gap : List Char → Prop
  | nil : Gap []
  | blank {c : Char} {cs : List Char} (hblank : Text.isBlank c = true) : Gap cs → Gap (c :: cs)
  | comment {body cs : List Char} (hbody : ¬['*', '/'] <:+: body) :
      Gap cs → Gap ('/' :: '*' :: (body ++ '*' :: '/' :: cs))

/-- No gap stands in front of a character that is no blank and no slash. -/
theorem Gap.eq_nil {g rest rest' : List Char} {c : Char} (h : Gap g) (heq : c :: rest = g ++ rest')
    (hblank : Text.isBlank c = false) (hslash : c ≠ '/') : g = [] := by
  cases h with
  | nil => rfl
  | blank hblank' =>
    obtain ⟨rfl, -⟩ := List.cons.inj heq
    rw [hblank'] at hblank
    cases hblank
  | comment => exact absurd (List.cons.inj heq).1 hslash

/-- A blank in front of a quote is a gap, and all of it. -/
theorem Gap.eq_blank {g rest rest' : List Char} (h : Gap g)
    (heq : ' ' :: '"' :: rest = g ++ '"' :: rest') : g = [' '] ∧ rest = rest' := by
  cases h with
  | nil => exact absurd (List.cons.inj heq).1 (by decide)
  | @blank c cs _ hgap =>
    obtain ⟨rfl, htail⟩ := List.cons.inj heq
    obtain rfl := hgap.eq_nil htail (by decide) (by decide)
    exact ⟨rfl, (List.cons.inj htail).2⟩
  | comment => exact absurd (List.cons.inj heq).1 (by decide)

end Literal

/-! ### Markers -/

namespace Assembly

open Literal

/-- What stands in front of the two literals of a marker. -/
def markerHead : List Char :=
  "[global::System.CodeDom.Compiler.GeneratedCodeAttribute(".toList

/-- **A line is read as the attribute** with two literals of some values. -/
def Reads (line : String) (first second : List Nat) : Prop :=
  ∃ body₁ body₂ g₁ g₂ g₃ g₄ g₅ : List Char, Spells body₁ first ∧ Spells body₂ second ∧
    (Gap g₁ ∧ Gap g₂ ∧ Gap g₃ ∧ Gap g₄ ∧ Gap g₅) ∧
    line.toList = markerHead ++ (g₁ ++ '"' :: (body₁ ++ '"' :: (g₂ ++ ',' :: (g₃ ++ '"' :: (body₂ ++
      '"' :: (g₄ ++ ')' :: (g₅ ++ [']'])))))))

/-- **A plain assembly** has plain characters only in its name and its
version. -/
def IsPlain (a : Assembly) : Prop :=
  (∀ c ∈ a.name.toList, Literal.IsPlain c) ∧ ∀ c ∈ a.version.toList, Literal.IsPlain c

variable {a b : Assembly} {first second : List Nat}

theorem toList_marker (a : Assembly) : a.marker.toList = markerHead ++ '"' :: (a.name.toList ++
    '"' :: ',' :: ' ' :: '"' :: (a.version.toList ++ ['"', ')', ']'])) := by
  have hhead : "[global::System.CodeDom.Compiler.GeneratedCodeAttribute(\"".toList =
      markerHead ++ ['"'] := by
    decide +kernel
  have hbetween : "\", \"".toList = ['"', ',', ' ', '"'] := by decide
  have hend : "\")]".toList = ['"', ')', ']'] := by decide
  unfold marker
  simp only [String.toList_append, hhead, hbetween, hend, List.append_assoc, List.cons_append,
    List.nil_append]

/-- What a marker is read as, from the first quote on. -/
theorem reads_marker_iff : Reads a.marker first second ↔
    ∃ body₁ body₂ g₂ g₃ g₄ g₅ : List Char, Spells body₁ first ∧ Spells body₂ second ∧
      (Gap g₂ ∧ Gap g₃ ∧ Gap g₄ ∧ Gap g₅) ∧
      a.name.toList ++ '"' :: ',' :: ' ' :: '"' :: (a.version.toList ++ ['"', ')', ']']) =
        body₁ ++ '"' :: (g₂ ++ ',' ::
          (g₃ ++ '"' :: (body₂ ++ '"' :: (g₄ ++ ')' :: (g₅ ++ [']']))))) := by
  rw [Reads, toList_marker]
  simp only [List.append_cancel_left_eq]
  constructor
  · rintro ⟨body₁, body₂, g₁, g₂, g₃, g₄, g₅, h₁, h₂, ⟨hg₁, hgaps⟩, htext⟩
    obtain rfl := hg₁.eq_nil htext (by decide) (by decide)
    exact ⟨body₁, body₂, g₂, g₃, g₄, g₅, h₁, h₂, hgaps, (List.cons.inj htext).2⟩
  · rintro ⟨body₁, body₂, g₂, g₃, g₄, g₅, h₁, h₂, hgaps, htext⟩
    exact ⟨body₁, body₂, [], g₂, g₃, g₄, g₅, h₁, h₂, ⟨.nil, hgaps⟩, by rw [htext, List.nil_append]⟩

/-- Behind the name only the blank stands between the literals. -/
theorem rest_eq_of_gaps {g₂ g₃ rest rest' : List Char} (hg₂ : Gap g₂) (hg₃ : Gap g₃)
    (h : ',' :: ' ' :: '"' :: rest = g₂ ++ ',' :: (g₃ ++ '"' :: rest')) :
    g₂ = [] ∧ g₃ = [' '] ∧ rest = rest' := by
  obtain rfl := hg₂.eq_nil h (by decide) (by decide)
  exact ⟨rfl, hg₃.eq_blank (List.cons.inj h).2⟩

/-- **A marker that is read back is plain.** An escape in the first literal
would take the room of the blank, which is there; and with the blank there is no
room for one in the second. -/
theorem isPlain_of_reads (h : Reads a.marker (units a.name.toList) (units a.version.toList)) :
    a.IsPlain := by
  obtain ⟨body₁, body₂, g₂, g₃, g₄, g₅, h₁, h₂, ⟨hg₂, hg₃, -, -⟩, htext⟩ := reads_marker_iff.mp h
  have hone : (unitsOf '"'.toNat).length = 1 ∧ (unitsOf ','.toNat).length = 1 ∧
      (unitsOf ' '.toNat).length = 1 ∧ (unitsOf ')'.toNat).length = 1 ∧
      (unitsOf ']'.toNat).length = 1 := by
    decide
  have hwidth := congrArg (fun cs => (units cs).length) htext
  simp only [units_append, units_cons, List.length_append, hone] at hwidth
  have hle₁ := length_le_units g₂
  have hle₂ := length_le_units g₃
  have hle₃ := length_le_units g₄
  have hle₄ := length_le_units g₅
  rcases h₁.plain_or_lt with ⟨hplain₁, hsame⟩ | hlt₁
  · -- The first literal is the name, and the blank is the gap.
    have hbody : a.name.toList = body₁ := eq_of_width htext (congrArg List.length hsame)
    rw [← hbody, List.append_cancel_left_eq] at htext
    obtain ⟨rfl, rfl, hrest⟩ := rest_eq_of_gaps hg₂ hg₃ (List.cons.inj htext).2
    have hblank : (units [' ']).length = 1 := by decide
    rw [hblank, hbody] at hwidth
    rcases h₂.plain_or_lt with ⟨hplain₂, hsame₂⟩ | hlt₂
    · have hbody₂ : a.version.toList = body₂ := eq_of_width hrest (congrArg List.length hsame₂)
      exact ⟨hbody ▸ hplain₁, hbody₂ ▸ hplain₂⟩
    · omega
  · -- Nothing else has any room, so the rest is as wide as it is in the marker.
    rcases h₂.plain_or_lt with ⟨-, hsame₂⟩ | hlt₂
    · have hwidth₂ := congrArg List.length hsame₂
      have hg₂' : g₂ = [] := List.eq_nil_of_length_eq_zero (by omega)
      have hg₃' : g₃ = [] := List.eq_nil_of_length_eq_zero (by omega)
      rw [hg₂', hg₃'] at htext hwidth
      have hsplit :
          (a.name.toList ++ ['"', ',', ' ']) ++ '"' :: (a.version.toList ++ ['"', ')', ']']) =
          (body₁ ++ ['"', ',']) ++ '"' :: (body₂ ++ '"' :: (g₄ ++ ')' :: (g₅ ++ [']']))) := by
        simpa using htext
      have hfront : a.name.toList ++ ['"', ',', ' '] = body₁ ++ ['"', ','] := by
        refine eq_of_width hsplit ?_
        have hends : (units ['"', ',', ' ']).length = 3 ∧ (units ['"', ',']).length = 2 := by decide
        rw [units_append, units_append, List.length_append, List.length_append, hends.1, hends.2]
        omega
      have hlast := congrArg List.getLast? hfront
      simp at hlast
    · omega

/-- **A marker with plain texts is read in one way.** -/
theorem eq_units_of_reads (ha : a.IsPlain) (h : Reads a.marker first second) :
    first = units a.name.toList ∧ second = units a.version.toList := by
  obtain ⟨body₁, body₂, g₂, g₃, g₄, g₅, h₁, h₂, ⟨hg₂, hg₃, -, -⟩, htext⟩ := reads_marker_iff.mp h
  obtain ⟨rfl, rfl⟩ := h₁.eq_of_plain ha.1 htext
  rw [List.append_cancel_left_eq] at htext
  obtain ⟨rfl, rfl, hrest⟩ := rest_eq_of_gaps hg₂ hg₃ (List.cons.inj htext).2
  exact ⟨rfl, (h₂.eq_of_plain ha.2 hrest).2⟩

theorem reads_of_isPlain (ha : a.IsPlain) :
    Reads a.marker (units a.name.toList) (units a.version.toList) :=
  reads_marker_iff.mpr ⟨a.name.toList, a.version.toList, [], [' '], [], [], spells_of_plain ha.1,
    spells_of_plain ha.2, ⟨.nil, .blank (by decide) .nil, .nil, .nil⟩, rfl⟩

/-- A marker with plain texts is one line. -/
theorem isLineEnd_marker (ha : a.IsPlain) : ∀ c ∈ a.marker.toList, isLineEnd c = false := by
  have hhead : markerHead.all (!isLineEnd ·) = true := by decide +kernel
  have hends : isLineEnd '"' = false ∧ isLineEnd ',' = false ∧ isLineEnd ' ' = false ∧
      isLineEnd ')' = false ∧ isLineEnd ']' = false := by
    decide
  rw [toList_marker]
  simp only [List.forall_mem_append, List.forall_mem_cons, hends, true_and]
  exact ⟨by simpa using hhead, fun c hc => (ha.1 c hc).2.2, fun c hc => (ha.2 c hc).2.2, by simp⟩

theorem takeWhile_quote {cs : List Char} (h : '"' ∉ cs) (rest : List Char) :
    (cs ++ '"' :: rest).takeWhile (· ≠ '"') = cs := by
  rw [List.takeWhile_append_of_pos fun c hc => by simpa using fun hq : c = '"' => h (hq ▸ hc)]
  simp

/-- **No other pair has the marker of plain texts**: it has the quotes that a
marker has anyway, and no others. -/
theorem eq_of_marker_eq (ha : a.IsPlain) (h : b.marker = a.marker) : b = a := by
  have hquote : ∀ {cs : List Char}, (∀ c ∈ cs, Literal.IsPlain c) → '"' ∉ cs := fun hcs hmem =>
    (hcs _ hmem).1 rfl
  have htext := congrArg String.toList h
  rw [toList_marker, toList_marker, List.append_cancel_left_eq] at htext
  replace htext := (List.cons.inj htext).2
  have hname : '"' ∉ b.name.toList := by
    have hcount := congrArg (List.count '"') htext
    simp only [List.count_append, List.count_cons, List.count_eq_zero_of_not_mem (hquote ha.1),
      List.count_eq_zero_of_not_mem (hquote ha.2)] at hcount
    exact List.count_eq_zero.mp (by omega)
  have hsame : b.name.toList = a.name.toList := by
    have hfirst := congrArg (List.takeWhile (· ≠ '"')) htext
    rwa [takeWhile_quote hname, takeWhile_quote (hquote ha.1)] at hfirst
  have hversion : b.version.toList = a.version.toList := by simpa [hsame] using htext
  cases a
  cases b
  cases String.toList_inj.mp hsame
  cases String.toList_inj.mp hversion
  rfl

/-- **Which markers are read back.** The marker of an assembly is one line that
is read as the attribute with two literals, whose values are the name and the
version, exactly when neither of these has a quote, a backslash or the end of a
line in it. Then it is not read in any other way, and no other name and version
have the same marker. -/
theorem marker_reads_iff (a : Assembly) :
    ((∀ c ∈ a.marker.toList, isLineEnd c = false) ∧
      Reads a.marker (units a.name.toList) (units a.version.toList) ↔ a.IsPlain) ∧
    (a.IsPlain →
      (∀ first second, Reads a.marker first second →
        first = units a.name.toList ∧ second = units a.version.toList) ∧
      ∀ b : Assembly, b.marker = a.marker → b = a) :=
  ⟨⟨fun h => isPlain_of_reads h.2, fun ha => ⟨isLineEnd_marker ha, reads_of_isPlain ha⟩⟩,
    fun ha => ⟨fun _ _ => eq_units_of_reads ha, fun _ => eq_of_marker_eq ha⟩⟩

/-- **Two assemblies with one marker**, which is read back as neither. -/
theorem marker_ambiguous :
    let a : Assembly := ⟨"Gen\", \"1.0", "2.0"⟩
    let b : Assembly := ⟨"Gen", "1.0\", \"2.0"⟩
    a ≠ b ∧ a.marker = b.marker ∧
      ¬Reads a.marker (units a.name.toList) (units a.version.toList) ∧
      ¬Reads b.marker (units b.name.toList) (units b.version.toList) := by
  intro a b
  have hquote : '"' ∈ a.name.toList ∧ '"' ∈ b.version.toList := by decide
  exact ⟨by decide, by decide +kernel, fun h => ((isPlain_of_reads h).1 _ hquote.1).1 rfl,
    fun h => ((isPlain_of_reads h).2 _ hquote.2).1 rfl⟩

end Assembly

end SharpSource
