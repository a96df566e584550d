import SequenceNotation.Calendar.Date
import Mathlib.Tactic.IntervalCases

/-!
# Counting days and months

Day numbers count the dates without a gap: the number of a date is one more than that of the day before, and every
date is the one with its number.  Moving by days is therefore going from day to day, and moving by months finds the
month that is so far away.
-/

namespace SequenceNotation.Calendar

/-! ### Going from day to day -/

namespace Date

/-- The next date of the calendar: one day further in the month, else the first of the next month, else that of
the next year. -/
def tomorrow? (date : Date) : Option Date :=
  of? date.year date.month (date.day + 1) <|> of? date.year (date.month + 1) 1 <|> of? (date.year + 1) 1 1

/-- The date that so many steps from day to day lead to. -/
def later? : Nat → Date → Option Date
  | 0, date => some date
  | days + 1, date => date.tomorrow?.bind (later? days)

/-- A date lies so many days after another one if so many steps lead to it, and before it if they lead back. -/
def IsDaysAfter (target start : Date) : Int → Prop
  | .ofNat days => start.later? days = some target
  | .negSucc days => target.later? (days + 1) = some start

/-- A date lies so many months after another one if its month does.  It has the same day, or the last one of a
shorter month. -/
def IsMonthsAfter (target start : Date) (months : Int) : Prop :=
  12 * target.year + target.month = 12 * start.year + start.month + months ∧
    target.day = min start.day (monthLength target.year target.month)

instance (target start : Date) (days : Int) : Decidable (target.IsDaysAfter start days) :=
  match days with
  | .ofNat days => inferInstanceAs (Decidable (start.later? days = some target))
  | .negSucc days => inferInstanceAs (Decidable (target.later? (days + 1) = some start))

instance (target start : Date) (months : Int) : Decidable (target.IsMonthsAfter start months) :=
  inferInstanceAs (Decidable (_ ∧ _))

theorem of?_eq_some {year : Int} {month day : Nat} {date : Date} :
    of? year month day = some date ↔ date.year = year ∧ date.month = month ∧ date.day = day := by
  unfold of?
  constructor
  · intro h
    split at h
    · cases h
      exact ⟨rfl, rfl, rfl⟩
    · cases h
  · rintro ⟨rfl, rfl, rfl⟩
    exact dif_pos date.isDate

theorem of?_eq_none {year : Int} {month day : Nat} : of? year month day = none ↔ ¬IsDate year month day := by
  unfold of?
  split <;> simp_all

end Date

/-! ### The parts of a date -/

def yearLength (year : Int) : Nat :=
  if isLeapYear year then 366 else 365

theorem daysBeforeYear_succ (year : Int) : daysBeforeYear (year + 1) = daysBeforeYear year + yearLength year := by
  unfold daysBeforeYear yearLength isLeapYear
  simp only [Bool.and_eq_true, Bool.or_eq_true, decide_eq_true_eq]
  split <;> omega

/-- Later years begin later. -/
theorem daysBeforeYear_le {year year' : Int} (h : year < year') :
    daysBeforeYear year + yearLength year ≤ daysBeforeYear year' := by
  rw [← daysBeforeYear_succ]
  unfold daysBeforeYear
  dsimp only
  omega

section Month

variable {year : Int} {month : Nat}

theorem monthLength_eq (hlow : 1 ≤ month) (hhigh : month ≤ 12) :
    monthLength year month = if month = 2 then (if isLeapYear year then 29 else 28)
      else if month = 4 ∨ month = 6 ∨ month = 9 ∨ month = 11 then 30 else 31 := by
  interval_cases month <;> rfl

theorem month_le_of_monthLength (h : 0 < monthLength year month) : 1 ≤ month ∧ month ≤ 12 := by
  unfold monthLength at h
  split at h
  · omega
  · rcases Nat.lt_or_ge (month - 1) 12 with hmonth | hmonth
    · omega
    · rw [List.getElem?_eq_none (by exact hmonth)] at h
      cases h

theorem daysBeforeMonth_succ (hlow : 1 ≤ month) (hhigh : month ≤ 12) :
    daysBeforeMonth year (month + 1) = daysBeforeMonth year month + monthLength year month := by
  interval_cases month <;> rfl

theorem daysBeforeMonth_one : daysBeforeMonth year 1 = 0 :=
  rfl

theorem daysBeforeMonth_thirteen : daysBeforeMonth year 13 = yearLength year := by
  unfold daysBeforeMonth yearLength monthLengths
  cases isLeapYear year <;> rfl

theorem daysBeforeMonth_le (hlow : 1 ≤ month) (hhigh : month ≤ 12) :
    daysBeforeMonth year month + monthLength year month ≤ yearLength year := by
  unfold daysBeforeMonth monthLength monthLengths yearLength
  cases isLeapYear year <;> interval_cases month <;> decide

theorem monthLength_pos (hlow : 1 ≤ month) (hhigh : month ≤ 12) : 0 < monthLength year month := by
  rw [monthLength_eq hlow hhigh]
  split_ifs <;> decide

end Month

/-! ### Day numbers and dates -/

section Parts

variable {quadricentury : Int} {century olympiad year : Nat}

/-- The days before a year that lies so many whole periods behind the year 1. -/
theorem daysBeforeYear_parts (hcentury : century ≤ 3) (holympiad : olympiad ≤ 24) (hyear : year ≤ 3) :
    daysBeforeYear (400 * quadricentury + ((100 * century + 4 * olympiad + year : Nat) : Int) + 1) =
      146097 * quadricentury + ((36524 * century + 1461 * olympiad + 365 * year : Nat) : Int) := by
  unfold daysBeforeYear
  dsimp only
  generalize hlast : 400 * quadricentury + ((100 * century + 4 * olympiad + year : Nat) : Int) + 1 - 1 = last
  have hfour : last / 4 = 100 * quadricentury + 25 * century + olympiad := by omega
  have hhundred : last / 100 = 4 * quadricentury + century := by omega
  have hfourHundred : last / 400 = quadricentury := by omega
  rw [hfour, hhundred, hfourHundred]
  omega

/-- The last year of four is longer, but for that of the first three of four centuries. -/
theorem yearLength_parts (hcentury : century ≤ 3) (holympiad : olympiad ≤ 24) (hyear : year ≤ 3) :
    yearLength (400 * quadricentury + ((100 * century + 4 * olympiad + year : Nat) : Int) + 1) =
      if year = 3 ∧ (olympiad ≠ 24 ∨ century = 3) then 366 else 365 := by
  unfold yearLength isLeapYear
  simp only [Bool.and_eq_true, Bool.or_eq_true, decide_eq_true_eq]
  refine if_congr ?_ rfl rfl
  omega

end Parts

/-- Every day lies in the year of its number. -/
theorem yearAndDay_spec (n : Int) :
    daysBeforeYear (yearAndDay n).1 + (yearAndDay n).2 = n ∧ (yearAndDay n).2 < yearLength (yearAndDay n).1 := by
  unfold yearAndDay
  dsimp only
  generalize hrest : (n % 146097).toNat = rest
  generalize hcentury : min 3 (rest / 36524) = century
  generalize holympiad : (rest - 36524 * century) / 1461 = olympiad
  generalize hyear : min 3 ((rest - 36524 * century - 1461 * olympiad) / 365) = year
  generalize hday : rest - 36524 * century - 1461 * olympiad - 365 * year = day
  have hcenturies : century ≤ 3 := by omega
  have holympiads : olympiad ≤ 24 := by omega
  have hyears : year ≤ 3 := by omega
  have hsum : rest = 36524 * century + 1461 * olympiad + 365 * year + day := by omega
  rw [daysBeforeYear_parts hcenturies holympiads hyears, yearLength_parts hcenturies holympiads hyears]
  constructor
  · omega
  · split <;> omega

/-- A day number lies in one year only. -/
theorem yearAndDay_eq {n year : Int} {dayOfYear : Nat} (h : daysBeforeYear year + dayOfYear = n)
    (hday : dayOfYear < yearLength year) : yearAndDay n = (year, dayOfYear) := by
  obtain ⟨hown, hownDay⟩ := yearAndDay_spec n
  have hyear : (yearAndDay n).1 = year := by
    rcases Int.lt_trichotomy (yearAndDay n).1 year with hlt | heq | hgt
    · have hle := daysBeforeYear_le hlt
      omega
    · exact heq
    · have hle := daysBeforeYear_le hgt
      omega
  rw [hyear] at hown
  exact Prod.ext hyear (by dsimp only; omega)

/-- The months before a day are taken off one after the other. -/
theorem monthAndDay_take {lengths : List Nat} {i : Nat} (month : Nat) {day : Nat} (hi : i < lengths.length)
    (hday : day < lengths[i]) :
    monthAndDay month ((lengths.take i).sum + day) lengths = (month + i, day + 1) := by
  induction lengths generalizing month i with
  | nil => cases hi
  | cons length rest ih =>
    cases i with
    | zero =>
      rw [List.take_zero, List.sum_nil, Nat.zero_add, monthAndDay]
      exact if_pos hday
    | succ i =>
      rw [List.take_succ_cons, List.sum_cons, monthAndDay, if_neg (by omega), Nat.add_assoc,
        Nat.add_sub_cancel_left, ih (month + 1) (Nat.lt_of_succ_lt_succ hi) hday]
      exact Prod.ext (by dsimp only; omega) rfl

theorem monthAndDay_eq {year : Int} {month day : Nat} (hlow : 1 ≤ month) (hhigh : month ≤ 12) (hday : 1 ≤ day)
    (hlength : day ≤ monthLength year month) :
    monthAndDay 1 (daysBeforeMonth year month + (day - 1)) (monthLengths year) = (month, day) := by
  have hi : month - 1 < (monthLengths year).length := by
    show month - 1 < 12
    omega
  have hget : monthLength year month = (monthLengths year)[month - 1] := by
    rw [monthLength, if_neg (by omega), List.getElem?_eq_getElem hi, Option.getD_some]
  rw [daysBeforeMonth, ← List.sum_eq_foldl_nat, monthAndDay_take 1 hi (by omega)]
  exact Prod.ext (by dsimp only; omega) (by dsimp only; omega)

/-- Every day of a year lies in a month. -/
theorem exists_month {year : Int} {dayOfYear : Nat} (h : dayOfYear < yearLength year) :
    ∃ month day, (1 ≤ month ∧ month ≤ 12) ∧ (1 ≤ day ∧ day ≤ monthLength year month) ∧
      dayOfYear = daysBeforeMonth year month + (day - 1) := by
  rw [← daysBeforeMonth_thirteen] at h
  have hmonths (count : Nat) (hcount : count ≤ 12) (hday : dayOfYear < daysBeforeMonth year (count + 1)) :
      ∃ month day, (1 ≤ month ∧ month ≤ 12) ∧ (1 ≤ day ∧ day ≤ monthLength year month) ∧
        dayOfYear = daysBeforeMonth year month + (day - 1) := by
    induction count with
    | zero =>
      rw [daysBeforeMonth_one] at hday
      cases hday
    | succ count ih =>
      rcases Nat.lt_or_ge dayOfYear (daysBeforeMonth year (count + 1)) with hbefore | hbehind
      · exact ih (by omega) hbefore
      · rw [daysBeforeMonth_succ (by omega) hcount] at hday
        exact ⟨count + 1, dayOfYear - daysBeforeMonth year (count + 1) + 1, by omega, by omega, by omega⟩
  exact hmonths 12 (Nat.le_refl 12) h

namespace Date

variable {date target : Date} {n : Int}

theorem month_mem (date : Date) : 1 ≤ date.month ∧ date.month ≤ 12 := by
  obtain ⟨-, hday, hlength⟩ := date.isDate
  exact month_le_of_monthLength (Nat.lt_of_lt_of_le hday hlength)

/-- The day of the year of a date, counted from zero. -/
theorem dayOfYear_lt (date : Date) :
    daysBeforeMonth date.year date.month + (date.day - 1) < yearLength date.year := by
  obtain ⟨hlow, hhigh⟩ := date.month_mem
  obtain ⟨-, hday, hlength⟩ := date.isDate
  have hle := @daysBeforeMonth_le date.year date.month hlow hhigh
  omega

/-- A date is the one with its day number. -/
theorem ofDayNumber?_eq_some_iff : ofDayNumber? n = some date ↔ date.dayNumber = n := by
  unfold dayNumber
  rw [Int.add_assoc, ← Int.natCast_add]
  constructor
  · intro h
    obtain ⟨hnumber, hday⟩ := yearAndDay_spec n
    obtain ⟨month, day, ⟨hlow, hhigh⟩, ⟨hfirst, hlast⟩, hsplit⟩ := exists_month hday
    unfold ofDayNumber? at h
    dsimp only at h
    rw [hsplit, monthAndDay_eq hlow hhigh hfirst hlast] at h
    obtain ⟨hyear, hmonth, hdate⟩ := of?_eq_some.1 h
    rw [hyear, hmonth, hdate, ← hsplit, hnumber]
  · intro h
    obtain ⟨hlow, hhigh⟩ := date.month_mem
    obtain ⟨-, hfirst, hlast⟩ := date.isDate
    unfold ofDayNumber?
    rw [yearAndDay_eq h date.dayOfYear_lt]
    dsimp only
    rw [monthAndDay_eq hlow hhigh hfirst hlast]
    exact of?_eq_some.2 ⟨rfl, rfl, rfl⟩

/-! ### Moving by days -/

theorem dayNumber_lt (date : Date) : date.dayNumber < daysBeforeYear (maxYear + 1) := by
  have hday := date.dayOfYear_lt
  have hyear := daysBeforeYear_le (Int.lt_add_one_of_le date.isDate.1.2)
  unfold dayNumber
  omega

/-- The three ways in which a day may follow. -/
theorem tomorrow?_eq (date : Date) :
    date.tomorrow? =
      if date.day < monthLength date.year date.month then of? date.year date.month (date.day + 1)
      else if date.month < 12 then of? date.year (date.month + 1) 1
      else of? (date.year + 1) 1 1 := by
  obtain ⟨hlow, -⟩ := date.month_mem
  obtain ⟨hyears, -, -⟩ := date.isDate
  unfold tomorrow?
  split
  · -- within the month
    rename_i hday
    have hdate : IsDate date.year date.month (date.day + 1) := ⟨hyears, Nat.le_add_left 1 _, hday⟩
    rw [of?, dif_pos hdate]
    rfl
  · rename_i hday
    have hwithin : of? date.year date.month (date.day + 1) = none := of?_eq_none.2 fun hdate => hday hdate.2.2
    rw [hwithin]
    split
    · -- on the first of the next month
      rename_i hmonth
      have hdate : IsDate date.year (date.month + 1) 1 :=
        ⟨hyears, Nat.le_refl 1, monthLength_pos (Nat.le_add_left 1 _) hmonth⟩
      rw [of?, dif_pos hdate]
      rfl
    · -- behind December, on the first of the year
      rename_i hmonth
      have hbehind : of? date.year (date.month + 1) 1 = none :=
        of?_eq_none.2 fun hdate => hmonth (month_le_of_monthLength hdate.2.2).2
      rw [hbehind]
      rfl

/-- The last day of a year is the last one of December. -/
theorem dayNumber_of_last (hmonth : ¬date.month < 12) (hday : ¬date.day < monthLength date.year date.month) :
    date.dayNumber + 1 = daysBeforeYear (date.year + 1) := by
  obtain ⟨-, hhigh⟩ := date.month_mem
  obtain ⟨-, hfirst, hlast⟩ := date.isDate
  have hdecember : date.month = 12 := by omega
  have hsum := @daysBeforeMonth_succ date.year 12 (by decide) (Nat.le_refl 12)
  rw [daysBeforeMonth_thirteen] at hsum
  rw [hdecember] at hday hlast
  rw [daysBeforeYear_succ, dayNumber, hdecember]
  omega

/-- The day number goes up by one from day to day. -/
theorem dayNumber_of_tomorrow? {next : Date} (h : date.tomorrow? = some next) :
    next.dayNumber = date.dayNumber + 1 := by
  obtain ⟨hlow, hhigh⟩ := date.month_mem
  obtain ⟨-, hfirst, hlast⟩ := date.isDate
  rw [tomorrow?_eq] at h
  split at h
  · obtain ⟨hyear, hmonth, hday⟩ := of?_eq_some.1 h
    rw [dayNumber, dayNumber, hyear, hmonth, hday]
    omega
  · rename_i hend
    split at h
    · obtain ⟨hyear, hmonth, hday⟩ := of?_eq_some.1 h
      rw [dayNumber, dayNumber, hyear, hmonth, hday, daysBeforeMonth_succ hlow hhigh]
      omega
    · rename_i hdecember
      obtain ⟨hyear, hmonth, hday⟩ := of?_eq_some.1 h
      rw [dayNumber_of_last hdecember hend, dayNumber, hyear, hmonth, hday, daysBeforeMonth_one]
      omega

/-- Only behind the last date of the calendar there is none. -/
theorem dayNumber_le_of_tomorrow? (h : date.tomorrow? = none) (target : Date) :
    target.dayNumber ≤ date.dayNumber := by
  obtain ⟨hlow, hhigh⟩ := date.month_mem
  obtain ⟨⟨hmin, hmax⟩, hfirst, hlast⟩ := date.isDate
  rw [tomorrow?_eq] at h
  split at h
  · rename_i hday
    exact absurd ⟨⟨hmin, hmax⟩, Nat.le_add_left 1 _, hday⟩ (of?_eq_none.1 h)
  · rename_i hday
    split at h
    · rename_i hmonth
      exact absurd ⟨⟨hmin, hmax⟩, Nat.le_refl 1, monthLength_pos (Nat.le_add_left 1 _) hmonth⟩ (of?_eq_none.1 h)
    · rename_i hmonth
      have hyear : date.year = maxYear := by
        by_contra hne
        have hnext : minYear ≤ date.year + 1 ∧ date.year + 1 ≤ maxYear := by omega
        exact of?_eq_none.1 h ⟨hnext, Nat.le_refl 1, monthLength_pos (Nat.le_refl 1) (by decide)⟩
      have htarget := target.dayNumber_lt
      have hnumber := dayNumber_of_last hmonth hday
      rw [hyear] at hnumber
      omega

/-- Going from day to day counts the day numbers. -/
theorem later?_eq_some_iff {days : Nat} :
    date.later? days = some target ↔ target.dayNumber = date.dayNumber + days := by
  induction days generalizing date with
  | zero =>
    rw [later?, Option.some.injEq]
    constructor
    · rintro rfl
      exact (Int.add_zero _).symm
    · intro h
      exact Option.some.inj ((ofDayNumber?_eq_some_iff.2 rfl).symm.trans
        (ofDayNumber?_eq_some_iff.2 (h.trans (Int.add_zero _))))
  | succ days ih =>
    rw [later?]
    cases htomorrow : date.tomorrow? with
    | none =>
      -- The last day of the calendar has no day behind it, so no day has a larger number either.
      have hle := dayNumber_le_of_tomorrow? htomorrow target
      constructor
      · intro h
        cases h
      · intro h
        omega
    | some next =>
      rw [Option.bind_some, ih, dayNumber_of_tomorrow? htomorrow]
      omega

theorem isDaysAfter_iff : target.IsDaysAfter date n ↔ target.dayNumber = date.dayNumber + n := by
  cases n with
  | ofNat days => exact later?_eq_some_iff
  | negSucc days =>
    rw [IsDaysAfter, later?_eq_some_iff]
    omega

theorem addDays?_eq_some_iff : date.addDays? n = some target ↔ target.IsDaysAfter date n := by
  rw [isDaysAfter_iff]
  exact ofDayNumber?_eq_some_iff

/-- A month ends on the day that stepping back from the first of the next month leads to.  Behind the last December
of the calendar there is no next month, but December has the 31 days that are taken then. -/
theorem lastDayOfMonth_eq {year : Int} {month : Nat} (hyears : minYear ≤ year ∧ year ≤ maxYear) (hlow : 1 ≤ month)
    (hhigh : month ≤ 12) : lastDayOfMonth year month = monthLength year month := by
  let last : Date := ⟨year, month, monthLength year month, hyears, monthLength_pos hlow hhigh, Nat.le_refl _⟩
  have hnext : last.tomorrow? = if month = 12 then of? (year + 1) 1 1 else of? year (month + 1) 1 := by
    rw [tomorrow?_eq, if_neg (Nat.lt_irrefl _)]
    by_cases hmonth : month = 12
    · rw [if_pos hmonth, if_neg (show ¬month < 12 by omega)]
    · rw [if_neg hmonth, if_pos (show month < 12 by omega)]
  unfold lastDayOfMonth
  dsimp only
  rw [← hnext]
  cases htomorrow : last.tomorrow? with
  | some first =>
    have hback : first.yesterday? = some last := by
      rw [yesterday?, addDays?_eq_some_iff, isDaysAfter_iff, dayNumber_of_tomorrow? htomorrow]
      omega
    rw [Option.bind_some, hback]
    rfl
  | none =>
    have hdecember : month = 12 := by
      by_contra hne
      rw [hnext, if_neg hne] at htomorrow
      exact of?_eq_none.1 htomorrow ⟨hyears, Nat.le_refl 1, monthLength_pos (Nat.le_add_left 1 _) (by omega)⟩
    subst hdecember
    rfl

/-- The last year of a century is a leap year only if the century is a fourth one. -/
example : IsDaysAfter ⟨1900, 3, 1, by decide⟩ ⟨1900, 2, 28, by decide⟩ 1 ∧
    IsDaysAfter ⟨2000, 3, 1, by decide⟩ ⟨2000, 2, 28, by decide⟩ 2 := by
  decide

/-! ### Moving by months -/

theorem addMonths?_eq_some_iff : date.addMonths? n = some target ↔ target.IsMonthsAfter date n := by
  obtain ⟨hlow, hhigh⟩ := target.month_mem
  obtain ⟨hlow', hhigh'⟩ := date.month_mem
  unfold addMonths? monthNumber IsMonthsAfter
  dsimp only
  rw [of?_eq_some]
  constructor
  · rintro ⟨hyear, hmonth, hday⟩
    rw [← hyear, ← hmonth] at hday
    exact ⟨by omega, hday⟩
  · rintro ⟨hmonths, hday⟩
    have hyear : target.year = (12 * date.year + (date.month - 1 : Nat) + n) / 12 := by omega
    have hmonth : target.month = ((12 * date.year + (date.month - 1 : Nat) + n) % 12).toNat + 1 := by omega
    rw [← hyear, ← hmonth]
    exact ⟨rfl, rfl, hday⟩

/-! ### Distances between dates -/

theorem dayNumber_mem (date : Date) : -100000000 < date.dayNumber ∧ date.dayNumber < 100000000 := by
  obtain ⟨⟨hmin, hmax⟩, -⟩ := date.isDate
  have hday := date.dayOfYear_lt
  have hlength : yearLength date.year ≤ 366 := by
    unfold yearLength
    split <;> decide
  unfold minYear at hmin
  unfold maxYear at hmax
  unfold dayNumber daysBeforeYear
  dsimp only
  omega

/-- Dates are not so many days apart that a double could not count them. -/
theorem IsDaysAfter.natAbs_le (h : target.IsDaysAfter date n) : n.natAbs ≤ 200000000 := by
  have hdate := date.dayNumber_mem
  have htarget := target.dayNumber_mem
  rw [isDaysAfter_iff] at h
  omega

theorem IsMonthsAfter.natAbs_le (h : target.IsMonthsAfter date n) : n.natAbs ≤ 200000000 := by
  obtain ⟨⟨hmin, hmax⟩, -⟩ := date.isDate
  obtain ⟨⟨hmin', hmax'⟩, -⟩ := target.isDate
  have hmonth := date.month_mem
  have hmonth' := target.month_mem
  have hdistance := h.1
  unfold minYear at hmin hmin'
  unfold maxYear at hmax hmax'
  omega

end Date

namespace DateTime

/-- A moment lies so many units after another one if its date does and the time of the day is the same. -/
def IsUnitsAfter (moment start : DateTime) (count : Int) (unit : DateUnit) : Prop :=
  moment = { start with date := moment.date } ∧
    match unit with
    | .day => moment.date.IsDaysAfter start.date count
    | .week => moment.date.IsDaysAfter start.date (7 * count)
    | .month => moment.date.IsMonthsAfter start.date count
    | .year => moment.date.IsMonthsAfter start.date (12 * count)

instance (moment start : DateTime) (count : Int) (unit : DateUnit) :
    Decidable (moment.IsUnitsAfter start count unit) :=
  match unit with
  | .day => inferInstanceAs (Decidable (_ ∧ _))
  | .week => inferInstanceAs (Decidable (_ ∧ _))
  | .month => inferInstanceAs (Decidable (_ ∧ _))
  | .year => inferInstanceAs (Decidable (_ ∧ _))

variable {moment start : DateTime} {count : Int} {unit : DateUnit}

theorem shift?_eq_some_iff : start.shift? count unit = some moment ↔ moment.IsUnitsAfter start count unit := by
  unfold shift? IsUnitsAfter
  rw [Option.map_eq_some_iff]
  constructor
  · rintro ⟨date, hmoved, rfl⟩
    refine ⟨rfl, ?_⟩
    cases unit with
    | day => exact Date.addDays?_eq_some_iff.1 hmoved
    | week => exact Date.addDays?_eq_some_iff.1 hmoved
    | month => exact Date.addMonths?_eq_some_iff.1 hmoved
    | year => exact Date.addMonths?_eq_some_iff.1 hmoved
  · rintro ⟨htime, hdate⟩
    refine ⟨moment.date, ?_, htime.symm⟩
    cases unit with
    | day => exact Date.addDays?_eq_some_iff.2 hdate
    | week => exact Date.addDays?_eq_some_iff.2 hdate
    | month => exact Date.addMonths?_eq_some_iff.2 hdate
    | year => exact Date.addMonths?_eq_some_iff.2 hdate

theorem IsUnitsAfter.natAbs_le (h : moment.IsUnitsAfter start count unit) : count.natAbs ≤ 200000000 := by
  obtain ⟨-, hdate⟩ := h
  cases unit with
  | day => exact hdate.natAbs_le
  | week =>
    have hle := hdate.natAbs_le
    omega
  | month => exact hdate.natAbs_le
  | year =>
    have hle := hdate.natAbs_le
    omega

end DateTime

end SequenceNotation.Calendar
