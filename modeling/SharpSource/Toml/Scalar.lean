import SharpSource.Document.Value
import SharpSource.Toml.Lexeme

/-!
# Scalars of TOML

The values that are written without quotes or brackets: truth values, numbers,
dates and times. Digits may be grouped by single underscores; integers have
four bases; a date and a time may stand next to each other, and with them the
distance from universal time.

An integer is told by its start, and by what stands around its underscores. It
need not be **legible** for that: the digits behind a base may be missing, and
groups of digits may hold other characters.
-/

namespace SharpSource.Toml

open Document

/-! ### Groups of digits -/

/-- The digits that a text consists of, in groups with an underscore between any
two of them. -/
def grouped? (base : Nat) : List Char → Option (List Nat)
  | [] => none
  | [c] => (digitIn? base c).map ([·])
  | c :: '_' :: cs => do
    let d ← digitIn? base c
    let ds ← grouped? base cs
    some (d :: ds)
  | c :: cs => do
    let d ← digitIn? base c
    let ds ← grouped? base cs
    some (d :: ds)

/-- The digits of a whole number in base ten, which has no zero in front. -/
def whole? (cs : List Char) : Option (List Nat) :=
  (grouped? 10 cs).filter fun ds => ds.length = 1 || ds.head? != some 0

/-! ### Numbers -/

/-- A text without its sign, and whether the sign is a minus. -/
def unsigned : List Char → Bool × List Char
  | '-' :: cs => (true, cs)
  | '+' :: cs => (false, cs)
  | cs => (false, cs)

/-- The integer that the digits behind a base spell. -/
def based? (base : Nat) : List Char → Option Value
  | [] => some .illegible
  | ds => (grouped? base ds).map fun ds => .integer (ofDigits base ds)

/-- Whether a text is a group of digits, and more groups behind underscores.
Only the ends of groups are looked at, and taken for digits of the greatest
base. -/
def isGrouping (cs : List Char) : Bool :=
  let groups := Text.pieces (· == '_') cs
  let isDigit := fun c => (digitIn? 16 c).isSome
  2 ≤ groups.length && groups.head?.any (·.all Char.isDigit) &&
    groups.all (·.head?.any isDigit) && groups.dropLast.all (·.getLast?.any isDigit)

/-- Whether a text is an integer in base ten that is not legible. A point or the
mark of an exponent makes it a number of another kind. -/
def isIllegible (cs : List Char) : Bool :=
  isGrouping cs && cs.head? != some '0' && cs.all fun c => c != '.' && c != 'e' && c != 'E'

/-- The integer that a text spells. -/
def integer? (cs : List Char) : Option Value :=
  match cs with
  | '0' :: 'x' :: ds => based? 16 ds
  | '0' :: 'o' :: ds => based? 8 ds
  | '0' :: 'b' :: ds => based? 2 ds
  | _ =>
    let (negative, ds) := unsigned cs
    match whole? ds with
    | some n => some (.integer (if negative then -(ofDigits 10 n : Int) else ofDigits 10 n))
    | none => if isIllegible ds then some .illegible else none

/-- The exponent that a text spells. -/
def exponent? (cs : List Char) : Option Int :=
  let (negative, ds) := unsigned cs
  (grouped? 10 ds).map fun ds => if negative then -(ofDigits 10 ds : Int) else ofDigits 10 ds

/-- The number with a point, an exponent or both that a text spells. -/
def decimal? (cs : List Char) : Option Decimal :=
  let (negative, body) := unsigned cs
  if body = ['i', 'n', 'f'] then some (.infinite negative)
  else if body = ['n', 'a', 'n'] then some .nan
  else
    let isMark := fun c => c == 'e' || c == 'E'
    let mantissa := body.takeWhile (!isMark ·)
    let exponent :=
      match body.dropWhile (!isMark ·) with
      | [] => some 0
      | _ :: e => exponent? e
    let whole := mantissa.takeWhile (· != '.')
    let fraction :=
      match mantissa.dropWhile (· != '.') with
      | [] => if mantissa.length = body.length then none else some []
      | _ :: f => grouped? 10 f
    do
      let whole ← whole? whole
      let fraction ← fraction
      let exponent ← exponent
      some (.finite negative (ofDigits 10 (whole ++ fraction)) (exponent - fraction.length))

/-! ### Dates and times -/

/-- The rest of a text behind a character. -/
def behind? (c : Char) : List Char → Option (List Char)
  | d :: cs => if c = d then some cs else none
  | [] => none

/-- The number of days of a month. -/
def daysOf (year month : Nat) : Nat :=
  if month = 2 then
    if year % 4 = 0 ∧ (year % 100 ≠ 0 ∨ year % 400 = 0) then 29 else 28
  else if month = 4 ∨ month = 6 ∨ month = 9 ∨ month = 11 then 30
  else 31

/-- The rest of a text behind a date. -/
def date? (cs : List Char) : Option (List Char) := do
  let (year, cs) ← fixedDigits? 10 4 cs
  let (month, cs) ← fixedDigits? 10 2 (← behind? '-' cs)
  let (day, cs) ← fixedDigits? 10 2 (← behind? '-' cs)
  if 1 ≤ month ∧ month ≤ 12 ∧ 1 ≤ day ∧ day ≤ daysOf year month then some cs else none

/-- The rest of a text behind the fraction of a second, if there is one. -/
def fraction? (cs : List Char) : Option (List Char) :=
  match cs with
  | '.' :: ds => if (ds.head?.any Char.isDigit) then some (ds.dropWhile Char.isDigit) else none
  | _ => some cs

/-- The rest of a text behind a time. The seconds may be left out. -/
def time? (cs : List Char) : Option (List Char) := do
  let (hour, cs) ← fixedDigits? 10 2 cs
  let (minute, cs) ← fixedDigits? 10 2 (← behind? ':' cs)
  if hour ≤ 23 ∧ minute ≤ 59 then
    match cs with
    | ':' :: cs => do
      let (second, cs) ← fixedDigits? 10 2 cs
      if second ≤ 60 then fraction? cs else none
    | _ => some cs
  else none

/-- Whether a text is empty or the distance from universal time. -/
def isOffset (cs : List Char) : Bool :=
  match cs with
  | [] | ['z'] | ['Z'] => true
  | sign :: cs =>
    (sign == '+' || sign == '-') &&
      match (do
        let (hour, cs) ← fixedDigits? 10 2 cs
        let (minute, cs) ← fixedDigits? 10 2 (← behind? ':' cs)
        if hour ≤ 23 ∧ minute ≤ 59 then some cs else none) with
      | some [] => true
      | _ => false

/-- Whether a text spells a date, a time, or both. -/
def isMoment (cs : List Char) : Bool :=
  match date? cs with
  | some [] => true
  | some (c :: rest) =>
    (c == 'T' || c == 't' || c == ' ') &&
      match time? rest with
      | some rest => isOffset rest
      | none => false
  | none => time? cs == some []

/-! ### Scalars -/

/-- The value that a text without quotes and brackets spells. -/
def scalar? (cs : List Char) : Option Value :=
  if cs = ['t', 'r', 'u', 'e'] then some (.boolean true)
  else if cs = ['f', 'a', 'l', 's', 'e'] then some (.boolean false)
  else if isMoment cs then some (.moment (String.ofList cs))
  else
    (integer? cs).or ((decimal? cs).map .decimal)

/-- The characters that have a meaning between values. -/
def separators : List Char :=
  ['=', ',', '[', ']', '\x7b', '\x7d', '#', ' ', '\t', '\r', '\n']

/-- The characters that the text of a scalar may have: all but separators. -/
def isScalarChar (c : Char) : Bool :=
  !separators.contains c

/-- Cuts off the text of a scalar. A space belongs to it only between a date and
a time. -/
def cutScalar (cs : List Char) : List Char × List Char :=
  let first := cs.takeWhile isScalarChar
  let rest := cs.dropWhile isScalarChar
  match date? first, rest with
  | some [], ' ' :: d :: more =>
    if d.isDigit then
      let time := (d :: more).takeWhile isScalarChar
      (first ++ ' ' :: time, (d :: more).dropWhile isScalarChar)
    else (first, rest)
  | _, _ => (first, rest)

end SharpSource.Toml
