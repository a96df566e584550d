/-!
# Dates

The proleptic Gregorian calendar over a fixed range of years.  Dates are counted in days from the first
of January of the year 1, and moved by days or by months; a move out of the range gives nothing.
-/

namespace SequenceNotation.Calendar

/-- The first and the last year that dates have. -/
def minYear : Int := -262143
def maxYear : Int := 262142

/-- Whether a year has a 29th of February. -/
def isLeapYear (year : Int) : Bool :=
  year % 4 = 0 && (year % 100 ≠ 0 || year % 400 = 0)

/-- The number of days of each month of a year. -/
def monthLengths (year : Int) : List Nat :=
  [31, if isLeapYear year then 29 else 28, 31, 30, 31, 30, 31, 31, 30, 31, 30, 31]

/-- The number of days of a month; a month that does not exist has none. -/
def monthLength (year : Int) (month : Nat) : Nat :=
  if month = 0 then 0 else ((monthLengths year)[month - 1]?).getD 0

/-- Whether a year, month and day are a date. -/
def IsDate (year : Int) (month day : Nat) : Prop :=
  (minYear ≤ year ∧ year ≤ maxYear) ∧ 1 ≤ day ∧ day ≤ monthLength year month

instance (year : Int) (month day : Nat) : Decidable (IsDate year month day) :=
  inferInstanceAs (Decidable (_ ∧ _))

structure Date where
  year : Int
  month : Nat
  day : Nat
  isDate : IsDate year month day
  deriving DecidableEq

namespace Date

/-- The date of a year, month and day, if there is one. -/
def of? (year : Int) (month day : Nat) : Option Date :=
  if h : IsDate year month day then some ⟨year, month, day, h⟩ else none

end Date

/-- The days from the first of January of the year 1 to that of another year. -/
def daysBeforeYear (year : Int) : Int :=
  let y := year - 1
  365 * y + y / 4 - y / 100 + y / 400

/-- The days of a year before a month. -/
def daysBeforeMonth (year : Int) (month : Nat) : Nat :=
  ((monthLengths year).take (month - 1)).foldl (· + ·) 0

/-- The month and the day of the month for a day of the year, counted from zero; `month` is the number
of the first length. -/
def monthAndDay (month dayOfYear : Nat) : List Nat → Nat × Nat
  | [] => (month, dayOfYear + 1)
  | length :: rest =>
    if dayOfYear < length then (month, dayOfYear + 1)
    else monthAndDay (month + 1) (dayOfYear - length) rest

/-- The year and the day of the year, counted from zero, of a day number.  Whole periods of 400, 100, 4
and 1 years are taken off; the last of a hundred and of a year may be one day longer. -/
def yearAndDay (dayNumber : Int) : Int × Nat :=
  let quadricentury := dayNumber / 146097
  let rest := (dayNumber % 146097).toNat
  let century := min 3 (rest / 36524)
  let rest := rest - 36524 * century
  let olympiad := rest / 1461
  let rest := rest - 1461 * olympiad
  let year := min 3 (rest / 365)
  (400 * quadricentury + ((100 * century + 4 * olympiad + year : Nat) : Int) + 1, rest - 365 * year)

namespace Date

/-- The days from the first of January of the year 1. -/
def dayNumber (date : Date) : Int :=
  daysBeforeYear date.year + daysBeforeMonth date.year date.month + (date.day - 1 : Nat)

/-- The date with a day number, if it is in the range. -/
def ofDayNumber? (n : Int) : Option Date :=
  let (year, dayOfYear) := yearAndDay n
  let (month, day) := monthAndDay 1 dayOfYear (monthLengths year)
  of? year month day

/-- The date so many days later. -/
def addDays? (date : Date) (days : Int) : Option Date :=
  ofDayNumber? (date.dayNumber + days)

/-- The date of the day before. -/
def yesterday? (date : Date) : Option Date :=
  date.addDays? (-1)

/-- The months from January of the year 0. -/
def monthNumber (date : Date) : Int :=
  12 * date.year + (date.month - 1 : Nat)

/-- The date so many months later; its day is cut to the length of the month. -/
def addMonths? (date : Date) (months : Int) : Option Date :=
  let number := date.monthNumber + months
  let year := number / 12
  let month := (number % 12).toNat + 1
  of? year month (min date.day (monthLength year month))

end Date

/-- The day on which a month ends, which is the one before the first of the next month.  Where the calendar
has none of them it is the 31st. -/
def lastDayOfMonth (year : Int) (month : Nat) : Nat :=
  let next := if month = 12 then Date.of? (year + 1) 1 1 else Date.of? year (month + 1) 1
  ((next.bind Date.yesterday?).map Date.day).getD 31

/-- A date and a time of the day in whole seconds. -/
structure DateTime where
  date : Date
  hour : Nat := 0
  minute : Nat := 0
  second : Nat := 0
  deriving DecidableEq

/-- The units of time that dates move in. -/
inductive DateUnit where
  | day | week | month | year
  deriving DecidableEq, Repr

namespace DateTime

/-- Moves by a count of units; the time of the day stays. -/
def shift? (start : DateTime) (count : Int) (unit : DateUnit) : Option DateTime :=
  let moved := match unit with
    | .day => start.date.addDays? count
    | .week => start.date.addDays? (7 * count)
    | .month => start.date.addMonths? count
    | .year => start.date.addMonths? (12 * count)
  moved.map fun date => { start with date }

end DateTime

end SequenceNotation.Calendar
