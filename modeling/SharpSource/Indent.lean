import SharpSource.Failure
import SharpSource.Text.Blank

/-!
# Indentation

One level of indentation is a blank character, repeated. The **unit** that a
writer puts in front of a line, once for each level, is that run of characters.
It is never empty, and never longer than a text can be.
-/

namespace SharpSource

/-- The most bytes that a text may have. -/
def Indent.maxBytes : Nat := 0x7FFFFFFFFFFFFFFF

/-- One level of indentation. -/
structure Indent where
  /-- The character that the level is made of. -/
  char : Char
  /-- How many of them there are. -/
  width : Nat
  char_blank : Text.isBlank char = true := by decide
  width_pos : 0 < width := by decide
  width_le : width * char.utf8Size ≤ Indent.maxBytes := by decide
  deriving DecidableEq

namespace Indent

/-- Four spaces. -/
def spaces : Indent := { char := ' ', width := 4 }

/-- One tab. -/
def tab : Indent := { char := '\t', width := 1 }

instance : Inhabited Indent := ⟨spaces⟩

/-- The indentation of `width` characters `char`; a character that is not blank
fails before a width of zero does, and the bytes of the unit are counted
last. -/
def make (char : Char) (width : Nat) : Except Failure Indent :=
  if hc : Text.isBlank char = true then
    if hw : 0 < width then
      if hb : width * char.utf8Size ≤ maxBytes then
        .ok { char, width, char_blank := hc, width_pos := hw, width_le := hb }
      else .error .indentTooLong
    else .error .indentEmpty
  else .error (.indentNotBlank char)

/-- The text of one level. -/
def unit (i : Indent) : String :=
  String.ofList (List.replicate i.width i.char)

theorem unit_ne_empty (i : Indent) : i.unit ≠ "" := by
  intro h
  have := congrArg (List.length ∘ String.toList) h
  have := i.width_pos
  simp [unit] at *
  omega

/-- The bytes of a repeated character are counted without making the text. -/
theorem utf8ByteSize_replicate (char : Char) (width : Nat) :
    (String.ofList (List.replicate width char)).utf8ByteSize = width * char.utf8Size := by
  induction width with
  | zero => simp
  | succ width ih =>
    rw [List.replicate_succ', String.ofList_append, String.utf8ByteSize_append, ih,
      ← String.singleton_eq_ofList, String.utf8ByteSize_singleton, Nat.succ_mul]

/-- A text has room for a unit: this is what the bound on the width says. -/
theorem utf8ByteSize_unit_le (i : Indent) : i.unit.utf8ByteSize ≤ maxBytes := by
  rw [unit, utf8ByteSize_replicate]
  exact i.width_le

/-- An indentation in diagnostics. -/
def describe (i : Indent) : String :=
  "Indent \x7b ch: " ++ Text.quotedChar i.char ++ ", width: " ++ toString i.width ++
    ", unit: " ++ Text.quoted i.unit ++ " \x7d"

end Indent

end SharpSource
