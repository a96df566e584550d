import SequenceNotation.Calendar.Reading
import SequenceNotation.Settings.Data
import SequenceNotation.Toml.Text

/-!
# Numbers, truth values and times in TOML

Dates and times are kept as text in their usual form.
-/

namespace SequenceNotation.Toml

open SequenceNotation.Number SequenceNotation.Text SequenceNotation.Calendar

/-- Digits without the underscores between them; an underscore needs a digit on both sides. -/
def joinDigits? (isDigit : Char → Bool) : List Char → Option (List Char)
  | [] => none
  | [c] => if isDigit c then some [c] else none
  | c :: '_' :: rest => if isDigit c then (joinDigits? isDigit rest).map (c :: ·) else none
  | c :: rest => if isDigit c then (joinDigits? isDigit rest).map (c :: ·) else none

/-- Digits of a whole number: no zero stands in front of others. -/
def joinWhole? (text : List Char) : Option (List Char) := do
  let digits ← joinDigits? Char.isDigit text
  match digits with
  | '0' :: _ :: _ => none
  | digits => return digits

/-- An integer of 64 bits. -/
def integerInRange? (n : Int) : Option Data :=
  if -(Nat.pow 2 63) ≤ n ∧ n < Nat.pow 2 63 then some (.integer n) else none

/-- The integer of a radix. -/
def readRadixInteger? (radix : Nat) (text : List Char) : Option Data := do
  let digits ← joinDigits? (fun c => (radixDigit? radix c).isSome) text
  integerInRange? (← readRadix? radix digits)

def readInteger? (text : List Char) : Option Data :=
  match text with
  | '0' :: 'x' :: rest => readRadixInteger? 16 rest
  | '0' :: 'o' :: rest => readRadixInteger? 8 rest
  | '0' :: 'b' :: rest => readRadixInteger? 2 rest
  | _ => do
    let (negative, rest) := spanSign text
    let n : Int := digitsValue (← joinWhole? rest)
    integerInRange? (if negative then -n else n)

/-- The exponent of a number: its letter, sign and digits. -/
def joinExponent? : List Char → Option (List Char)
  | [] => some []
  | _ :: rest => do
    let digits := (spanSign rest).2
    let joined ← joinDigits? Char.isDigit digits
    return 'e' :: rest.take (rest.length - digits.length) ++ joined

def isExponentLetter (c : Char) : Bool :=
  c = 'e' || c = 'E'

/-- A number with a fraction or an exponent.  One that is too large is none. -/
def readFloat? (text : List Char) : Option Data := do
  let (negative, rest) := spanSign text
  if rest = "inf".toList then return .float (.infinite negative)
  else if rest = "nan".toList then return .float .nan
  else
    let (number, exponent) := rest.span fun c => !isExponentLetter c
    let (whole, fraction) := number.span (· ≠ '.')
    let whole ← joinWhole? whole
    let fraction ← match fraction with
      | [] => some []
      | _ :: digits => (joinDigits? Char.isDigit digits).map ('.' :: ·)
    let exponent ← joinExponent? exponent
    if fraction = [] ∧ exponent = [] then none
    else
      let value ← readUnsigned negative (whole ++ fraction ++ exponent)
      if value = Double.posInfinity then none else return .float value

/-- A time of the day in its usual form, and what follows. -/
def readTime? (text : List Char) : Option (List Char × List Char) := do
  let (hour, rest) ← readDigits? 2 2 text
  let (minute, rest) ← readDigits? 2 2 (← dropChar? ':' rest)
  let (second, rest) ← readDigits? 2 2 (← dropChar? ':' rest)
  let (fraction, rest) ← match rest with
    | '.' :: rest =>
      match rest.takeWhile Char.isDigit with
      | [] => none
      | digits => some (digits, rest.drop digits.length)
    | rest => some ([], rest)
  if 23 < hour ∨ 59 < minute ∨ 60 < second then none
  else
    let shown := ((fraction.take 9).reverse.dropWhile (· = '0')).reverse
    let time := paddedNumber 2 hour ++ ':' :: paddedNumber 2 minute ++ ':' :: paddedNumber 2 second
    return (time ++ (if shown = [] then [] else '.' :: shown), rest)

/-- An offset from universal time in its usual form. -/
def readOffset? : List Char → Option (List Char)
  | [] => some []
  | ['Z'] | ['z'] => some ['Z']
  | sign :: rest => do
    let (hours, rest) ← readDigits? 2 2 rest
    let (minutes, rest) ← readDigits? 2 2 (← dropChar? ':' rest)
    if rest ≠ [] ∨ 23 < hours ∨ 59 < minutes ∨ (sign ≠ '+' ∧ sign ≠ '-') then none
    else
      let sign := if hours = 0 ∧ minutes = 0 then '+' else sign
      return sign :: paddedNumber 2 hours ++ ':' :: paddedNumber 2 minutes

/-- A date in its usual form, and what follows. -/
def readDay? (text : List Char) : Option (List Char × List Char) := do
  let (year, rest) ← readDigits? 4 4 text
  let (month, rest) ← readDigits? 2 2 (← dropChar? '-' rest)
  let (day, rest) ← readDigits? 2 2 (← dropChar? '-' rest)
  if 1 ≤ day ∧ day ≤ monthLength year month then
    return (paddedNumber 4 year ++ '-' :: paddedNumber 2 month ++ '-' :: paddedNumber 2 day, rest)
  else none

/-- A date, a time, or both, with an optional offset behind both. -/
def readMoment? (text : List Char) : Option Data :=
  match readDay? text with
  | some (day, []) => some (.text (String.ofList day))
  | some (day, mark :: rest) => do
    let (time, rest) ← readTime? rest
    let offset ← readOffset? rest
    if mark = 'T' ∨ mark = 't' ∨ mark = ' ' then
      return .text (String.ofList (day ++ 'T' :: time ++ offset))
    else none
  | none =>
    match readTime? text with
    | some (time, []) => some (.text (String.ofList time))
    | _ => none

/-- The characters of numbers, truth values and times. -/
def isScalarChar (c : Char) : Bool :=
  isKeyChar c || c = '+' || c = '.' || c = ':'

/-- The text of a scalar, and what follows.  A space may stand between a date and a time. -/
def spanScalar (text : List Char) : List Char × List Char :=
  let (front, rest) := text.span isScalarChar
  match (readDay? front).map (·.2), rest with
  | some [], ' ' :: digit :: more =>
    if digit.isDigit then
      let (time, rest) := (digit :: more).span isScalarChar
      (front ++ ' ' :: time, rest)
    else (front, rest)
  | _, _ => (front, rest)

/-- The value of a scalar. -/
def readScalar? (text : List Char) : Option (Data × List Char) := do
  let (scalar, rest) := spanScalar text
  let data ←
    if scalar = "true".toList then some (.boolean true)
    else if scalar = "false".toList then some (.boolean false)
    else readInteger? scalar <|> readFloat? scalar <|> readMoment? scalar
  return (data, rest)

end SequenceNotation.Toml
