import SequenceNotation.Number.Decimal

/-!
# Printed numbers

The notations in which a number is printed: the one scripts see, the one of diagnostic records, and the
one of settings.  All print the shortest digits that read back; they differ in when an exponent is used
and in how zeros, infinities and whole numbers look.
-/

namespace SequenceNotation.Number.Double

/-- Digits with a minus sign in front when `negative`. -/
def signed (negative : Bool) (digits : List Char) : List Char :=
  if negative then '-' :: digits else digits

/-- The script's notation: never an exponent, zero without sign, whole numbers below `10 ^ 21` digit
for digit. -/
def toText : Double → String
  | .nan => "NaN"
  | .infinite negative => if negative then "-Infinity" else "Infinity"
  | .finite negative units _ =>
    if units = 0 then "0"
    else if units % unitsPerOne = 0 ∧ units < Nat.pow 10 21 * unitsPerOne then
      String.ofList (signed negative (decimalDigits (units / unitsPerOne)))
    else
      String.ofList (signed negative (shortest units).positional)

/-- The notation of records: always a fraction or an exponent, the latter from `10 ^ 16` up and below
`10 ^ (-4)`. -/
def toRecordText : Double → String
  | .nan => "NaN"
  | .infinite negative => if negative then "-inf" else "inf"
  | .finite negative units _ =>
    if units = 0 then (if negative then "-0.0" else "0.0")
    else
      let d := shortest units
      let digits :=
        if Nat.pow 10 16 * unitsPerOne ≤ units ∨ units * Nat.pow 10 4 < unitsPerOne then d.scientific
        else if 0 ≤ d.exponent then d.positional ++ ['.', '0']
        else d.positional
      String.ofList (signed negative digits)

/-- The notation of settings: the shortest digits without an exponent, and zero keeps its sign. -/
def toPlainText : Double → String
  | .nan => "NaN"
  | .infinite negative => if negative then "-inf" else "inf"
  | .finite negative units _ =>
    let digits := if units = 0 then ['0'] else (shortest units).positional
    String.ofList (signed negative digits)

/-- A number with a fixed count of places; infinities and NaN are spelled out. -/
def toFixed (places : Nat) : Double → String
  | .nan => "NaN"
  | .infinite negative => if negative then "-inf" else "inf"
  | .finite negative units _ => String.ofList (signed negative (fixedPlaces places units))

end SequenceNotation.Number.Double
