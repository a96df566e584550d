import SequenceNotation.Number.Double

/-!
# Reading numbers

A number is written as an optional sign and either a word for infinity or NaN, or decimal digits with
an optional point and exponent.  The value is rounded once.  Blanks are not accepted.  Beside the
reader stand the lengths of the longest such texts at the start of a longer one.
-/

namespace SequenceNotation.Number

/-- The value of a run of decimal digits. -/
def digitsValue (digits : List Char) : Nat :=
  digits.foldl (fun n c => n * 10 + (c.toNat - '0'.toNat)) 0

/-- The leading decimal digits and what follows them. -/
def spanDigits (text : List Char) : List Char × List Char :=
  text.span Char.isDigit

/-- The sign in front of a number: whether it is a minus, and what follows it. -/
def spanSign : List Char → Bool × List Char
  | '-' :: rest => (true, rest)
  | '+' :: rest => (false, rest)
  | rest => (false, rest)

/-- The exponent part that has to end the text; nothing means zero. -/
def readExponent : List Char → Option Int
  | [] => some 0
  | e :: rest =>
    if e = 'e' ∨ e = 'E' then
      let (negative, digits) := spanSign rest
      if digits ≠ [] ∧ digits.all Char.isDigit then
        let n : Int := digitsValue digits
        some (if negative then -n else n)
      else none
    else none

/-- The double nearest to `significand * 10 ^ exponent`.  Exponents that are certain to leave the
range are not raised to a power. -/
def nearestDecimal (negative : Bool) (significand : Nat) (exponent : Int) : Double :=
  let magnitude := exponent + digitCount significand
  if significand = 0 ∨ magnitude < -400 then Double.nearest negative 0 1
  else if 400 < magnitude then .infinite negative
  else if 0 ≤ exponent then
    Double.nearest negative (significand * Nat.pow 10 exponent.toNat * Double.unitsPerOne) 1
  else
    Double.nearest negative (significand * Double.unitsPerOne) (Nat.pow 10 (-exponent).toNat)

/-- The value of unsigned decimal text. -/
def readUnsigned (negative : Bool) (text : List Char) : Option Double :=
  let (whole, rest) := spanDigits text
  let (fraction, rest) := match rest with
    | '.' :: rest => spanDigits rest
    | rest => ([], rest)
  if whole = [] ∧ fraction = [] then none
  else
    (readExponent rest).map fun exponent =>
      nearestDecimal negative (digitsValue (whole ++ fraction)) (exponent - fraction.length)

/-- The number of leading characters that satisfy `p`. -/
def runLength (p : Char → Bool) (text : List Char) : Nat :=
  (text.takeWhile p).length

/-- Whether a character is the letter of an exponent. -/
def isExponentLetter (c : Char) : Bool :=
  c = 'e' || c = 'E'

/-- Whether a character is a sign. -/
def isSign (c : Char) : Bool :=
  c = '+' || c = '-'

/-- The length of a sign at the start of the text. -/
def signLength (text : List Char) : Nat :=
  if text.head?.any isSign then 1 else 0

/-- The length of an exponent at the start of the text; zero if there is none. -/
def exponentLength : List Char → Nat
  | e :: rest =>
    let digits := runLength Char.isDigit (rest.drop (signLength rest))
    if isExponentLetter e ∧ 0 < digits then 1 + signLength rest + digits else 0
  | [] => 0

/-- The length of a point and the digits behind it at the start of the text. -/
def fractionLength : List Char → Nat
  | c :: digits => if c = '.' then 1 + runLength Char.isDigit digits else 0
  | [] => 0

/-- The length of the digits and the fraction of a decimal literal at the start of the text; zero if
there is none. -/
def mantissaLength (text : List Char) : Nat :=
  let whole := runLength Char.isDigit text
  let fraction := fractionLength (text.drop whole)
  if whole = 0 ∧ fraction < 2 then 0 else whole + fraction

/-- The length of a decimal literal at the start of the text; zero if there is none. -/
def decimalLength (text : List Char) : Nat :=
  let mantissa := mantissaLength text
  if mantissa = 0 then 0 else mantissa + exponentLength (text.drop mantissa)

/-- The length of a number at the start of the text, sign included; zero if there is none. -/
def numberLength (text : List Char) : Nat :=
  let sign := text.length - (spanSign text).2.length
  let rest := (spanSign text).2
  let startsWith (word : String) := word.toList.isPrefixOf ((rest.take word.length).map Char.toLower)
  let length :=
    if startsWith "infinity" then 8
    else if startsWith "inf" ∨ startsWith "nan" then 3
    else decimalLength rest
  if length = 0 then 0 else sign + length

/-- The number that a text stands for, if it is one. -/
def readDouble (text : List Char) : Option Double :=
  let (negative, rest) := spanSign text
  let word := rest.map Char.toLower
  if word = "inf".toList ∨ word = "infinity".toList then some (.infinite negative)
  else if word = "nan".toList then some .nan
  else readUnsigned negative rest

end SequenceNotation.Number
