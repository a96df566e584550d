import SequenceNotation.Number.Double

/-!
# Decimal digits of doubles

The shortest decimal that reads back as a double, and the decimals with a given number of places or
digits.  All of them are found in exact arithmetic on counts of units.
-/

namespace SequenceNotation.Number

/-- The number `significand * 10 ^ exponent`. -/
structure Decimal where
  significand : Nat
  exponent : Int
  deriving DecidableEq, Repr

/-- The decimal digits of `n`, most significant first. -/
def decimalDigits (n : Nat) : List Char :=
  Nat.toDigits 10 n

/-- Zeros in front of a text up to the given width. -/
def zeroPadded (width : Nat) (digits : List Char) : List Char :=
  List.replicate (width - digits.length) '0' ++ digits

/-- Digits with a point after the first, unless that is the only one. -/
def pointAfterFirst : List Char → List Char
  | first :: second :: more => first :: '.' :: second :: more
  | digits => digits

namespace Decimal

/-- The same number without zeros at the end of the significand; `fuel` bounds their count. -/
def withoutTrailingZeros : (fuel : Nat) → Decimal → Decimal
  | 0, d => d
  | fuel + 1, d =>
    if d.significand ≠ 0 ∧ d.significand % 10 = 0 then
      withoutTrailingZeros fuel ⟨d.significand / 10, d.exponent + 1⟩
    else d

/-- Digits written out in full, with a point only in front of a fraction. -/
def positional (d : Decimal) : List Char :=
  let digits := decimalDigits d.significand
  if 0 ≤ d.exponent then
    digits ++ List.replicate d.exponent.toNat '0'
  else
    let places := (-d.exponent).toNat
    let padded := zeroPadded (places + 1) digits
    padded.take (padded.length - places) ++ '.' :: padded.drop (padded.length - places)

/-- The exponent of the first digit. -/
def leadingExponent (d : Decimal) : Int :=
  d.exponent + (digitCount d.significand : Int) - 1

/-- One digit, a point and the other digits if there are any, and the exponent. -/
def scientific (d : Decimal) : List Char :=
  pointAfterFirst (decimalDigits d.significand) ++ 'e' :: (toString d.leadingExponent).toList

end Decimal

/-- The greatest power of ten that is at most `num / den`, for a positive quotient. -/
def decimalMagnitude (num den : Nat) : Int :=
  if den ≤ num then (digitCount (num / den) : Int) - 1
  else -(digitCount ((den + num - 1) / num - 1) : Int)

/-- Numerator and denominator of a power of ten. -/
def powerOfTen (exponent : Int) : Nat × Nat :=
  if 0 ≤ exponent then (Nat.pow 10 exponent.toNat, 1) else (1, Nat.pow 10 (-exponent).toNat)

/-- The numbers that round to one double, in quarters of a unit: the double itself and both ends. -/
structure Basin where
  low : Nat
  centre : Nat
  high : Nat
  closed : Bool

/-- The basin of a positive count of units.  It reaches half way to both neighbours, the lower one of
which is nearer at a power of two, and holds its ends when the significand is even. -/
def basin (units : Nat) : Basin :=
  let s := spacing units
  let narrow := s ≠ 1 ∧ units = Nat.pow 2 (bitLength units - 1)
  { low := 4 * units - (if narrow then s else 2 * s)
    centre := 4 * units
    high := 4 * units + 2 * s
    closed := units / s % 2 = 0 }

/-- The decimal with its last digit at `10 ^ exponent` that lies in the basin and is nearest to its
centre, the upper one of two equally near. -/
def Basin.decimalAt? (b : Basin) (exponent : Int) : Option Decimal :=
  let (p, q) := powerOfTen exponent
  let one := 4 * Double.unitsPerOne
  let step := p * one
  let lower := b.centre * q / step
  let down := step * lower
  let up := step * (lower + 1)
  let lowerFits := if b.closed then b.low * q ≤ down else b.low * q < down
  let upperFits := if b.closed then up ≤ b.high * q else up < b.high * q
  if upperFits ∧ (¬ lowerFits ∨ up - b.centre * q ≤ b.centre * q - down) then
    some ⟨lower + 1, exponent⟩
  else if lowerFits then some ⟨lower, exponent⟩
  else none

/-- The shortest decimal that reads back as the positive count of units; seventeen digits always do. -/
def shortest (units : Nat) : Decimal :=
  let b := basin units
  let magnitude := decimalMagnitude units Double.unitsPerOne
  let found := (List.range 17).findSome? fun (n : Nat) => b.decimalAt? (magnitude - n)
  (found.getD ⟨0, 0⟩).withoutTrailingZeros 20

/-- The units rounded to a number of decimal places, written out. -/
def fixedPlaces (places units : Nat) : List Char :=
  let scaled := roundHalfEven (units * Nat.pow 10 places) Double.unitsPerOne
  if places = 0 then decimalDigits scaled else Decimal.positional ⟨scaled, -(places : Int)⟩

/-- The units rounded to one digit before the point and `places` after it: the digits without the
point, and the exponent of the first. -/
def significantDigits (places units : Nat) : List Char × Int :=
  if units = 0 then (List.replicate (places + 1) '0', 0)
  else
    let magnitude := decimalMagnitude units Double.unitsPerOne
    let (p, q) := powerOfTen (magnitude - places)
    let scaled := roundHalfEven (units * q) (Double.unitsPerOne * p)
    if scaled = Nat.pow 10 (places + 1) then (decimalDigits (Nat.pow 10 places), magnitude + 1)
    else (decimalDigits scaled, magnitude)

end SequenceNotation.Number
