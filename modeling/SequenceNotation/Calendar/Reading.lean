import SequenceNotation.Calendar.Template
import SequenceNotation.Number.Reading
import SequenceNotation.Text.Blank

/-!
# Reading dates

A date is read from an internet timestamp with an offset, which is left out of account, or by the first
of six patterns that fits the whole text.  The digits are ASCII.  The second of a leap second reads as the
one before it.
-/

namespace SequenceNotation.Calendar

open SequenceNotation.Number SequenceNotation.Text

/-- The number at the start of a text: from `least` up to `most` digits, as many as there are. -/
def readDigits? (least most : Nat) (text : List Char) : Option (Nat × List Char) :=
  let digits := (text.take most).takeWhile Char.isDigit
  if digits.length < least then none
  else some (digitsValue digits, text.drop digits.length)

/-- What is left behind a character that has to come first. -/
def dropChar? (c : Char) : List Char → Option (List Char)
  | [] => none
  | d :: rest => if d = c then some rest else none

/-- The numbers that have been read. -/
structure DateFields where
  year : Int := 0
  month : Nat := 0
  day : Nat := 0
  hour : Nat := 0
  minute : Nat := 0
  second : Nat := 0
  deriving DecidableEq

/-- The moment that the numbers make, if they are in their ranges. -/
def DateFields.moment? (fields : DateFields) : Option DateTime := do
  let date ← Date.of? fields.year fields.month fields.day
  if fields.hour ≤ 23 ∧ fields.minute ≤ 59 ∧ fields.second ≤ 60 then
    return { date, hour := fields.hour, minute := fields.minute, second := min fields.second 59 }
  else none

/-- A piece of a pattern. -/
inductive DatePiece where
  | year | month | day | hour | minute | second
  | mark (c : Char)
  | blanks
  deriving DecidableEq, Repr

/-- A year: with a sign any number of digits, without one at most four. -/
def readYear? (text : List Char) : Option (Int × List Char) :=
  match text with
  | '-' :: rest => (readDigits? 1 rest.length rest).map fun (n, rest) => (-(n : Int), rest)
  | '+' :: rest => (readDigits? 1 rest.length rest).map fun (n, rest) => ((n : Int), rest)
  | rest => (readDigits? 1 4 rest).map fun (n, rest) => ((n : Int), rest)

/-- Reads one piece; blanks in front of a number are skipped. -/
def readPiece? (piece : DatePiece) (fields : DateFields) (text : List Char) :
    Option (DateFields × List Char) :=
  let number := readDigits? 1 2 (trimLeft text)
  match piece with
  | .year => (readYear? (trimLeft text)).map fun (year, rest) => ({ fields with year }, rest)
  | .month => number.map fun (month, rest) => ({ fields with month }, rest)
  | .day => number.map fun (day, rest) => ({ fields with day }, rest)
  | .hour => number.map fun (hour, rest) => ({ fields with hour }, rest)
  | .minute => number.map fun (minute, rest) => ({ fields with minute }, rest)
  | .second => number.map fun (second, rest) => ({ fields with second }, rest)
  | .mark c => (dropChar? c text).map fun rest => (fields, rest)
  | .blanks => some (fields, trimLeft text)

/-- Reads the pieces of a pattern, which have to make up the whole text. -/
def readPieces? : List DatePiece → DateFields → List Char → Option DateFields
  | [], fields, text => if text = [] then some fields else none
  | piece :: pieces, fields, text => do
    let (fields, rest) ← readPiece? piece fields text
    readPieces? pieces fields rest

/-- The patterns in the order in which they are tried. -/
def datePatterns : List (List DatePiece) :=
  [[.year, .mark '-', .month, .mark '-', .day, .mark 'T', .hour, .mark ':', .minute, .mark ':', .second],
   [.year, .mark '-', .month, .mark '-', .day, .blanks, .hour, .mark ':', .minute, .mark ':', .second],
   [.year, .mark '-', .month, .mark '-', .day, .mark 'T', .hour, .mark ':', .minute],
   [.year, .mark '-', .month, .mark '-', .day],
   [.year, .mark '/', .month, .mark '/', .day],
   [.day, .mark '.', .month, .mark '.', .year]]

/-- Whether a text is the offset of an internet timestamp: `Z`, or a sign, hours and minutes. -/
def isOffset (text : List Char) : Bool :=
  match text with
  | [z] => z = 'Z' || z = 'z'
  | sign :: rest =>
    (sign = '+' || sign = '-' || sign = '−') &&
      (do
        let (hours, rest) ← readDigits? 2 2 rest
        let rest ← dropChar? ':' rest
        let (minutes, rest) ← readDigits? 2 2 rest
        return rest.isEmpty && hours ≤ 23 && minutes ≤ 59).getD false
  | [] => false

/-- What is left behind a fraction of a second. -/
def dropFraction? : List Char → Option (List Char)
  | '.' :: rest =>
    match rest.span Char.isDigit with
    | ([], _) => none
    | (_, rest) => some rest
  | rest => some rest

/-- The local time of an internet timestamp, all parts of which have their full width. -/
def readTimestamp? (text : List Char) : Option DateTime := do
  let (year, rest) ← readDigits? 4 4 text
  let (month, rest) ← readDigits? 2 2 (← dropChar? '-' rest)
  let (day, rest) ← readDigits? 2 2 (← dropChar? '-' rest)
  let rest ← dropChar? 'T' rest <|> dropChar? 't' rest <|> dropChar? ' ' rest
  let (hour, rest) ← readDigits? 2 2 rest
  let (minute, rest) ← readDigits? 2 2 (← dropChar? ':' rest)
  let (second, rest) ← readDigits? 2 2 (← dropChar? ':' rest)
  let rest ← dropFraction? rest
  if isOffset rest then DateFields.moment? { year, month, day, hour, minute, second } else none

/-- The moment that a text stands for, blanks at its ends aside. -/
def readDate? (text : String) : Option DateTime :=
  let text := trim text.toList
  readTimestamp? text <|>
    datePatterns.findSome? fun pattern => (readPieces? pattern {} text).bind DateFields.moment?

/-- Writes the date that a text stands for with a template and English names; other text stays. -/
def reformatDate (text template : String) : String :=
  match readDate? text with
  | some moment => formatDate moment template "en"
  | none => text

end SequenceNotation.Calendar
