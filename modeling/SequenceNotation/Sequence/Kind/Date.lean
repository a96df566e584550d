import SequenceNotation.Calendar.Reading
import SequenceNotation.Sequence.Producer
import SequenceNotation.Sequence.Rendering

/-!
# Sequences of dates

Dates go on from the start by units of time.  What the start leaves open comes from the present moment.
-/

namespace SequenceNotation.Sequence

open SequenceNotation.Script SequenceNotation.Notation SequenceNotation.Calendar
open SequenceNotation.Number SequenceNotation.Text

/-- The template by which expressions see dates, and which counts where none is set. -/
def isoTemplate : String := "yyyy-MM-dd"

/-- A date as expressions see it. -/
def isoText (moment : DateTime) : String :=
  formatDate moment isoTemplate "en"

/-- A year in decimal with an optional sign, if it fits into 32 bits. -/
def readYearNumber? (text : List Char) : Option Int :=
  let (negative, digits) := spanSign text
  (readRadix? 10 digits).bind fun n =>
    let year : Int := if negative then -n else n
    if -(Nat.pow 2 31) ≤ year ∧ year < Nat.pow 2 31 then some year else none

/-- The year that digits stand for; two digits stand behind the century. -/
def yearOfDigits? (century digits : String) : Option Int :=
  readYearNumber? ((if digits.length = 2 then century ++ digits else digits).toList)

/-- The moment at which a sequence of dates starts: the present one if nothing is given, and otherwise
midnight of the date that the given parts and the present ones make.  A day past the end of its month
is the last one. -/
def resolveStart (start : DateStart) (century : String) (now : DateTime) : DateTime :=
  if start = {} then now
  else
    let year := (start.year.bind (yearOfDigits? century)).getD now.date.year
    let month := (start.month.filter fun month => 1 ≤ month ∧ month ≤ 12).getD now.date.month
    let day := max (start.day.getD now.date.day) 1
    { date := (Date.of? year month (min day (lastDayOfMonth year month))).getD now.date }

structure DateSequence where
  start : DateTime
  unit : DateUnit
  folding : Folding
  template : String
  language : String

namespace DateSequence

variable (sequence : DateSequence)

/-- The date at an index; one out of the calendar's range is the start. -/
def dateAt (index : Nat) : DateTime :=
  let steps := (sequence.folding.logicalIndex index).round.toInt64
  (sequence.start.shift? steps sequence.unit).getD sequence.start

/-- The date that the result of the expression selects: the one that its text stands for. -/
def select (own : DateTime) : Value → Logged DateTime
  | .text text =>
    match readDate? text with
    | some moment => pure moment
    | none => do
      Logged.debug ("expression result '" ++ text ++ "' is not a date")
      return own
  | _ => pure own

def producer : Producer DateTime where
  own? _ index _ := some (pure (sequence.dateAt index))
  shown moment := .text (isoText moment)
  select := select
  settled moment := .text (isoText moment)
  text moment := formatDate moment sequence.template sequence.language

end DateSequence

end SequenceNotation.Sequence
