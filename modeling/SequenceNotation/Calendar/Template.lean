import SequenceNotation.Calendar.Date
import SequenceNotation.Number.Decimal

/-!
# Date templates

A template is text in which tokens such as `yyyy` or `MM` stand for parts of a date.  At each place the
longest token counts, and everything else is copied.  Year, day, hour and second may be written in either
case; `M` is the month and `m` the minute.
-/

namespace SequenceNotation.Calendar

open SequenceNotation.Number

/-- What a token stands for: a part of the date, and how it is written. -/
inductive DatePart where
  | year | yearOfCentury | monthName | monthShortName | paddedMonth | month | paddedDay | day
  | paddedHour | hour | paddedMinute | minute | paddedSecond | second
  deriving DecidableEq, Repr

/-- Every token with its part; a token stands behind the longer ones that begin with it. -/
def dateTokens : List (String × DatePart) :=
  [("yyyy", .year), ("YYYY", .year), ("MMMM", .monthName), ("MMM", .monthShortName),
   ("yy", .yearOfCentury), ("YY", .yearOfCentury), ("MM", .paddedMonth), ("dd", .paddedDay),
   ("DD", .paddedDay), ("HH", .paddedHour), ("hh", .paddedHour), ("mm", .paddedMinute),
   ("ss", .paddedSecond), ("SS", .paddedSecond), ("M", .month), ("d", .day), ("D", .day),
   ("H", .hour), ("h", .hour), ("m", .minute), ("s", .second), ("S", .second)]

def englishMonths : List String :=
  ["January", "February", "March", "April", "May", "June", "July", "August", "September", "October",
   "November", "December"]

def germanMonths : List String :=
  ["Januar", "Februar", "März", "April", "Mai", "Juni", "Juli", "August", "September", "Oktober",
   "November", "Dezember"]

def frenchMonths : List String :=
  ["janvier", "février", "mars", "avril", "mai", "juin", "juillet", "août", "septembre", "octobre",
   "novembre", "décembre"]

def spanishMonths : List String :=
  ["enero", "febrero", "marzo", "abril", "mayo", "junio", "julio", "agosto", "septiembre", "octubre",
   "noviembre", "diciembre"]

/-- The names of the months in the language of a tag such as `de` or `es-MX`; English if unknown. -/
def monthNames (language : String) : List String :=
  let primary := (language.toList.takeWhile fun c => c ≠ '-' && c ≠ '_').map Char.toLower
  if primary = ['d', 'e'] then germanMonths
  else if primary = ['f', 'r'] then frenchMonths
  else if primary = ['e', 's'] then spanishMonths
  else englishMonths

def monthName (language : String) (month : Nat) : String :=
  ((monthNames language)[month - 1]?).getD ""

/-- A natural number in decimal with zeros in front up to a width. -/
def paddedNumber (width n : Nat) : List Char :=
  zeroPadded width (decimalDigits n)

/-- A year of at least four characters, the sign included. -/
def yearText (year : Int) : List Char :=
  if year < 0 then '-' :: paddedNumber 3 year.natAbs else paddedNumber 4 year.natAbs

/-- The text of a part of a date. -/
def DatePart.text (moment : DateTime) (language : String) : DatePart → List Char
  | year => yearText moment.date.year
  | yearOfCentury => paddedNumber 2 (moment.date.year % 100).toNat
  | monthName => (Calendar.monthName language moment.date.month).toList
  | monthShortName => (Calendar.monthName language moment.date.month).toList.take 3
  | paddedMonth => paddedNumber 2 moment.date.month
  | month => decimalDigits moment.date.month
  | paddedDay => paddedNumber 2 moment.date.day
  | day => decimalDigits moment.date.day
  | paddedHour => paddedNumber 2 moment.hour
  | hour => decimalDigits moment.hour
  | paddedMinute => paddedNumber 2 moment.minute
  | minute => decimalDigits moment.minute
  | paddedSecond => paddedNumber 2 moment.second
  | second => decimalDigits moment.second

/-- The token at the start of a template: its length and its part. -/
def dateTokenAt? (template : List Char) : Option (Nat × DatePart) :=
  (dateTokens.find? fun (token, _) => token.toList.isPrefixOf template).map
    fun (token, part) => (token.length, part)

/-- A template with its tokens replaced. -/
def renderTemplate (moment : DateTime) (language : String) : List Char → List Char
  | [] => []
  | c :: rest =>
    match dateTokenAt? (c :: rest) with
    | some (length, part) =>
      part.text moment language ++ renderTemplate moment language (rest.drop (length - 1))
    | none => c :: renderTemplate moment language rest
termination_by template => template.length
decreasing_by all_goals simp only [List.length_drop, List.length_cons]; omega

/-- A date written with a template in a language. -/
def formatDate (moment : DateTime) (template language : String) : String :=
  String.ofList (renderTemplate moment language template.toList)

end SequenceNotation.Calendar
