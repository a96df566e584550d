import SequenceNotation.Proofs.Calendar.Days

/-!
# The order of dates

Dates are ordered by their years, months and days, which is the order of their day numbers.  Of two moves forward the
one by more units leads to no earlier date, and if it stays in the calendar, then so does the other one.
-/

namespace SequenceNotation.Calendar

namespace Date

/-- A date with a smaller year is earlier, in one year that with a smaller month, and in one month that with a
smaller day. -/
instance : LE Date where
  le first last := first.year < last.year ∨
    first.year = last.year ∧ (first.month < last.month ∨ first.month = last.month ∧ first.day ≤ last.day)

instance (first last : Date) : Decidable (first ≤ last) :=
  inferInstanceAs (Decidable (_ ∨ _))

variable {first last start target : Date} {m n : Int}

theorem le_def : first ≤ last ↔ first.year < last.year ∨
    first.year = last.year ∧ (first.month < last.month ∨ first.month = last.month ∧ first.day ≤ last.day) :=
  Iff.rfl

/-! ### Day numbers -/

/-- Later months begin later. -/
theorem daysBeforeMonth_le_of_lt {year : Int} {month month' : Nat} (hlow : 1 ≤ month) (h : month < month')
    (hhigh : month' ≤ 12) : daysBeforeMonth year month + monthLength year month ≤ daysBeforeMonth year month' := by
  induction month', h using Nat.le_induction with
  | base => exact Nat.le_of_eq (daysBeforeMonth_succ hlow (by omega)).symm
  | succ month' hmonth ih =>
    rw [daysBeforeMonth_succ (by omega) (by omega)]
    exact Nat.le_trans (ih (by omega)) (Nat.le_add_right _ _)

/-- A date that is not as late as another one has a smaller day number. -/
theorem dayNumber_lt_of_not_le (h : ¬last ≤ first) : first.dayNumber < last.dayNumber := by
  obtain ⟨hlow, hhigh⟩ := first.month_mem
  obtain ⟨hlow', hhigh'⟩ := last.month_mem
  obtain ⟨-, hpos, hday⟩ := first.isDate
  obtain ⟨-, hpos', -⟩ := last.isDate
  have hownDay := first.dayOfYear_lt
  rw [le_def] at h
  unfold dayNumber
  rcases Int.lt_trichotomy first.year last.year with hyear | hyear | hyear
  · have hyears := daysBeforeYear_le hyear
    omega
  · rw [hyear] at hday ⊢
    rcases Nat.lt_trichotomy first.month last.month with hmonth | hmonth | hmonth
    · have hmonths := @daysBeforeMonth_le_of_lt last.year _ _ hlow hmonth hhigh'
      omega
    · rw [hmonth]
      omega
    · omega
  · omega

theorem le_antisymm (h : first ≤ last) (h' : last ≤ first) : first = last := by
  have hsame : last.year = first.year ∧ last.month = first.month ∧ last.day = first.day := by
    rw [le_def] at h h'
    omega
  exact Option.some.inj ((of?_eq_some.2 ⟨rfl, rfl, rfl⟩).symm.trans (of?_eq_some.2 hsame))

theorem le_iff_dayNumber_le : first ≤ last ↔ first.dayNumber ≤ last.dayNumber := by
  constructor
  · intro h
    by_cases hback : last ≤ first
    · rw [le_antisymm h hback]
    · exact Int.le_of_lt (dayNumber_lt_of_not_le hback)
  · intro h
    by_contra hnot
    have hlt := dayNumber_lt_of_not_le hnot
    omega

/-! ### Moves by days -/

theorem later?_add (date : Date) (m n : Nat) : date.later? (m + n) = (date.later? m).bind (later? n) := by
  induction m generalizing date with
  | zero => rw [Nat.zero_add, later?, Option.bind_some]
  | succ m ih =>
    rw [Nat.add_right_comm, later?, later?, Option.bind_assoc]
    exact congrArg _ (funext ih)

/-- The days in front of a date that is so many days later are in the calendar. -/
theorem exists_isDaysAfter (h : target.IsDaysAfter start n) (hm : 0 ≤ m) (hmn : m ≤ n) :
    ∃ between : Date, between.IsDaysAfter start m := by
  obtain ⟨days, rfl⟩ := Int.eq_ofNat_of_zero_le hm
  obtain ⟨more, hmore⟩ := Int.le.dest hmn
  obtain rfl : n = Int.ofNat (days + more) := hmore.symm
  have hreached : start.later? (days + more) = some target := h
  rw [later?_add] at hreached
  obtain ⟨between, hbetween, -⟩ := Option.bind_eq_some_iff.1 hreached
  exact ⟨between, hbetween⟩

theorem IsDaysAfter.le (h : first.IsDaysAfter start m) (h' : last.IsDaysAfter start n) (hmn : m ≤ n) :
    first ≤ last := by
  rw [isDaysAfter_iff] at h h'
  rw [le_iff_dayNumber_le]
  omega

/-! ### Moves by months -/

theorem exists_isMonthsAfter (h : target.IsMonthsAfter start n) (hm : 0 ≤ m) (hmn : m ≤ n) :
    ∃ between : Date, between.IsMonthsAfter start m := by
  obtain ⟨hlow, hhigh⟩ := start.month_mem
  obtain ⟨hlow', hhigh'⟩ := target.month_mem
  obtain ⟨⟨hmin, -⟩, hpos, -⟩ := start.isDate
  obtain ⟨⟨-, hmax⟩, -⟩ := target.isDate
  have hdistance := h.1
  -- the month that is so far away, counted from January of the year 0
  let number := 12 * start.year + (start.month - 1) + m
  have hmonth : 1 ≤ (number % 12).toNat + 1 ∧ (number % 12).toNat + 1 ≤ 12 := by omega
  have hlength := @monthLength_pos (number / 12) _ hmonth.1 hmonth.2
  have hyears : minYear ≤ number / 12 ∧ number / 12 ≤ maxYear := by omega
  refine ⟨⟨number / 12, (number % 12).toNat + 1, min start.day (monthLength (number / 12) ((number % 12).toNat + 1)),
    hyears, by omega, Nat.min_le_right _ _⟩, ?_, rfl⟩
  show 12 * (number / 12) + (((number % 12).toNat + 1 : Nat) : Int) = 12 * start.year + start.month + m
  omega

theorem IsMonthsAfter.le (h : first.IsMonthsAfter start m) (h' : last.IsMonthsAfter start n) (hmn : m ≤ n) :
    first ≤ last := by
  obtain ⟨hlow, hhigh⟩ := first.month_mem
  obtain ⟨hlow', hhigh'⟩ := last.month_mem
  obtain ⟨hmonths, hday⟩ := h
  obtain ⟨hmonths', hday'⟩ := h'
  rw [le_def]
  rcases Int.lt_or_eq_of_le hmn with hlt | rfl
  · omega
  · have hyear : first.year = last.year := by omega
    have hmonth : first.month = last.month := by omega
    rw [hyear, hmonth] at hday
    omega

end Date

/-! ### Moments -/

namespace DateTime

/-- The seconds of the day in front of a moment. -/
def secondOfDay (moment : DateTime) : Nat :=
  3600 * moment.hour + 60 * moment.minute + moment.second

/-- A moment is earlier on an earlier date, and on one date with fewer seconds in front of it. -/
instance : LE DateTime where
  le first last := first.date ≤ last.date ∧ (first.date = last.date → first.secondOfDay ≤ last.secondOfDay)

instance (first last : DateTime) : Decidable (first ≤ last) :=
  inferInstanceAs (Decidable (_ ∧ _))

variable {first last start target : DateTime} {m n : Int} {unit : DateUnit}

theorem le_refl (moment : DateTime) : moment ≤ moment :=
  ⟨Date.le_iff_dayNumber_le.2 (Int.le_refl _), fun _ => Nat.le_refl _⟩

/-- Of two moves in one unit the one by more units leads to no earlier moment. -/
theorem IsUnitsAfter.le (h : first.IsUnitsAfter start m unit) (h' : last.IsUnitsAfter start n unit) (hmn : m ≤ n) :
    first ≤ last := by
  obtain ⟨htime, hdate⟩ := h
  obtain ⟨htime', hdate'⟩ := h'
  constructor
  · cases unit with
    | day => exact hdate.le hdate' hmn
    | week => exact hdate.le hdate' (by omega)
    | month => exact hdate.le hdate' hmn
    | year => exact hdate.le hdate' (by omega)
  · intro hsame
    rw [htime, htime', hsame]

/-- A move forward by fewer units stays in the calendar. -/
theorem exists_isUnitsAfter (h : target.IsUnitsAfter start n unit) (hm : 0 ≤ m) (hmn : m ≤ n) :
    ∃ between : DateTime, between.IsUnitsAfter start m unit := by
  obtain ⟨-, hdate⟩ := h
  cases unit with
  | day =>
    obtain ⟨between, hbetween⟩ := Date.exists_isDaysAfter hdate hm hmn
    exact ⟨{ start with date := between }, rfl, hbetween⟩
  | week =>
    obtain ⟨between, hbetween⟩ := Date.exists_isDaysAfter hdate (by omega) (Int.mul_le_mul_of_nonneg_left hmn (by decide))
    exact ⟨{ start with date := between }, rfl, hbetween⟩
  | month =>
    obtain ⟨between, hbetween⟩ := Date.exists_isMonthsAfter hdate hm hmn
    exact ⟨{ start with date := between }, rfl, hbetween⟩
  | year =>
    obtain ⟨between, hbetween⟩ := Date.exists_isMonthsAfter hdate (by omega) (Int.mul_le_mul_of_nonneg_left hmn (by decide))
    exact ⟨{ start with date := between }, rfl, hbetween⟩

theorem isUnitsAfter_zero (start : DateTime) (unit : DateUnit) : start.IsUnitsAfter start 0 unit := by
  refine ⟨rfl, ?_⟩
  have hday : start.date.day = min start.date.day (monthLength start.date.year start.date.month) :=
    (Nat.min_eq_left start.date.isDate.2.2).symm
  cases unit with
  | day => rfl
  | week => rfl
  | month => exact ⟨(Int.add_zero _).symm, hday⟩
  | year => exact ⟨(Int.add_zero _).symm, hday⟩

end DateTime

end SequenceNotation.Calendar
