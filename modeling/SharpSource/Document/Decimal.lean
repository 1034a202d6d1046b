/-!
# Decimal numbers

Numbers with a point in a document are read as decimals and shown as decimals,
but what a reader holds in between is a binary number of fifty-three digits. So
a number is shown with the **fewest digits that read back** as the same binary
number, the nearest of those. How the digits are written, with an exponent or
without, is a matter of **layout**.

All of it is exact arithmetic on fractions of natural numbers.
-/

namespace SharpSource

/-- A number with a point, as a document writes it. -/
inductive Decimal where
  /-- The number `digits · 10 ^ exponent`, or its negative. -/
  | finite (negative : Bool) (digits : Nat) (exponent : Int)
  | infinite (negative : Bool)
  | nan
  deriving DecidableEq, Repr, Inhabited

namespace Decimal

/-- A positive fraction. -/
structure Fraction where
  num : Nat
  den : Nat

/-- The fraction `digits · base ^ exponent`. -/
def Fraction.scaled (digits base : Nat) (exponent : Int) : Fraction :=
  if 0 ≤ exponent then ⟨digits * base.pow exponent.toNat, 1⟩
  else ⟨digits, base.pow (-exponent).toNat⟩

/-- The fraction divided by `base ^ exponent`. -/
def Fraction.over (f : Fraction) (base : Nat) (exponent : Int) : Fraction :=
  if 0 ≤ exponent then ⟨f.num, f.den * base.pow exponent.toNat⟩
  else ⟨f.num * base.pow (-exponent).toNat, f.den⟩

/-- The natural number nearest to a fraction; a half goes to the even
neighbour. -/
def Fraction.round (f : Fraction) : Nat :=
  let q := f.num / f.den
  let twice := 2 * (f.num % f.den)
  if f.den < twice ∨ (twice = f.den ∧ q % 2 = 1) then q + 1 else q

/-- A binary number `mantissa · 2 ^ exponent`. -/
structure Binary where
  mantissa : Nat
  exponent : Int
  deriving DecidableEq

/-- The smallest exponent of a binary number. -/
def minExponent : Int := -1074

/-- The first mantissa of fifty-four digits. -/
def mantissaBound : Nat := Nat.pow 2 53

/-- The binary number of fifty-three digits nearest to a fraction. -/
def nearest (f : Fraction) : Binary :=
  let size : Int := f.num.log2 - f.den.log2
  let low := max (size - 53) minExponent
  let exponent := if (f.over 2 low).num / (f.over 2 low).den < mantissaBound then low else low + 1
  let mantissa := (f.over 2 exponent).round
  if mantissa = mantissaBound then ⟨mantissaBound / 2, exponent + 1⟩ else ⟨mantissa, exponent⟩

/-- How many digits a number has to the left of its point, counted negatively
for zeros to the right of it. -/
def pointPlace (f : Fraction) : Int :=
  if f.den ≤ f.num then (Nat.toDigits 10 (f.num / f.den)).length
  else
    let zeros := (List.range 400).find? (fun j => f.den ≤ f.num * Nat.pow 10 (j + 1))
    Int.neg (zeros.getD 400)

/-- How numbers are written. -/
structure Layout where
  /-- Whether the greater of two numbers that are equally near is taken, instead
  of the even one. -/
  tiesUp : Bool
  /-- The exponents of leading digits with which a number is written without an
  exponent: from the first on, and below the second. All are where there are no
  bounds. -/
  plain : Option (Int × Int)

/-- The layout that never has an exponent. -/
def Layout.positional : Layout := ⟨true, none⟩

/-- The layout with an exponent for numbers far from one. -/
def Layout.scientific : Layout := ⟨false, some (-5, 16)⟩

/-- Of the two natural numbers around a fraction, the nearer one. -/
def Fraction.nearer (tiesUp : Bool) (f : Fraction) : Nat :=
  if tiesUp && 2 * (f.num % f.den) == f.den then f.num / f.den + 1 else f.round

/-- Of the two numbers of `count` digits around a fraction, the nearer of those
that read back as `target`. -/
def candidate? (tiesUp : Bool) (f : Fraction) (target : Binary) (count : Nat) :
    Option (Nat × Int) :=
  let exponent := pointPlace f - count
  let scaled := f.over 10 exponent
  let low := scaled.num / scaled.den
  let fits := fun n => decide (nearest (.scaled n 10 exponent) = target)
  match fits low && 0 < low, fits (low + 1) with
  | true, true => some (scaled.nearer tiesUp, exponent)
  | true, false => some (low, exponent)
  | false, true => some (low + 1, exponent)
  | false, false => none

/-- The digits and the exponent of a positive decimal with the fewest digits
that read back. -/
def shortest (tiesUp : Bool) (digits : Nat) (exponent : Int) : Nat × Int :=
  let target := nearest (.scaled digits 10 exponent)
  let exact := Fraction.scaled target.mantissa 2 target.exponent
  let found := (List.range 17).findSome? fun n => candidate? tiesUp exact target (n + 1)
  found.getD (digits, exponent)

/-- The number `digits · 10 ^ exponent` with a point. -/
def pointed (digits : Nat) (exponent : Int) : String :=
  let ds := Nat.toDigits 10 digits
  if 0 ≤ exponent then String.ofList (ds ++ List.replicate exponent.toNat '0') ++ ".0"
  else
    let places := (-exponent).toNat
    let ds := List.replicate (places + 1 - ds.length) '0' ++ ds
    let whole := String.ofList (ds.take (ds.length - places))
    let fraction := (ds.drop (ds.length - places)).reverse.dropWhile (· == '0')
    whole ++ "." ++ (if fraction.isEmpty then "0" else String.ofList fraction.reverse)

/-- How many digits `digits · 10 ^ exponent` has to the left of its point;
counted negatively, how many zeros to the right of it. -/
def magnitude (digits : Nat) (exponent : Int) : Int :=
  (Nat.toDigits 10 digits).length + exponent

/-- The number `digits · 10 ^ exponent` with one digit in front of the point and
an exponent. -/
def exponential (digits : Nat) (exponent : Int) : String :=
  let leading := magnitude digits exponent - 1
  let ds := ((Nat.toDigits 10 digits).reverse.dropWhile (· == '0')).reverse
  let fraction := if ds.length ≤ 1 then [] else '.' :: ds.drop 1
  String.ofList (ds.take 1 ++ fraction) ++ (if leading < 0 then "e-" else "e+") ++
    toString leading.natAbs

/-- The number `digits · 10 ^ exponent` in a layout. -/
def Layout.write (l : Layout) (digits : Nat) (exponent : Int) : String :=
  let leading := magnitude digits exponent - 1
  match l.plain with
  | none => pointed digits exponent
  | some (first, bound) =>
    if first ≤ leading ∧ leading < bound then pointed digits exponent
    else exponential digits exponent

/-- The sign of a number. -/
def sign (negative : Bool) : String :=
  if negative then "-" else ""

/-- Whether a number is too large for any binary number. -/
def isOverflowing : Decimal → Bool
  | finite _ 0 _ | infinite _ | nan => false
  | finite _ digits exponent =>
    310 < magnitude digits exponent ||
      (-400 < magnitude digits exponent &&
        971 < (nearest (.scaled digits 10 exponent)).exponent)

/-- Whether a number is too small for any binary number but zero. -/
def isVanishing (digits : Nat) (exponent : Int) : Bool :=
  digits = 0 || magnitude digits exponent ≤ -400 ||
    (nearest (.scaled digits 10 exponent)).mantissa = 0

/-- A number in diagnostics. -/
def describe (l : Layout) : Decimal → String
  | finite negative digits exponent =>
    if isVanishing digits exponent then sign negative ++ "0.0"
    else
      let (digits, exponent) := shortest l.tiesUp digits exponent
      sign negative ++ l.write digits exponent
  | infinite negative => sign negative ++ "inf"
  | nan => "NaN"

end Decimal

end SharpSource
