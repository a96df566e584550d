import SequenceNotation.Proofs.Calendar.Days
import SequenceNotation.Proofs.Notation.NumericGroups
import SequenceNotation.Sequence.Kind.Date

/-!
# Where sequences of dates start

The body of a date gives a year of four or two digits, or nothing.  Two digits go behind the century, and what else is
not given comes from the present moment.  A day of a longer month becomes the last one, so every start is a date.
-/

namespace SequenceNotation.Sequence

open SequenceNotation.Calendar SequenceNotation.Notation SequenceNotation.Number SequenceNotation.Pattern
open SequenceNotation.Text

/-! ### The parts of a date -/

section Parts

variable {delimiter : Option String} {body : List Char} {found : Found}

/-- Nothing is given without a year, and a year has four digits or two. -/
theorem year_parts (h : (Segments.ofDelimiter delimiter).find? "date_body" body = some found) :
    (found.part? "year" = none ∧ found.part? "month" = none ∧ found.part? "day" = none) ∨
      ∃ digits, found.part? "year" = some digits ∧ (digits.length = 4 ∨ digits.length = 2) := by
  rw [Segments.find?, pattern_dateBody] at h
  cases hyear : found.part? "year" with
  | some digits =>
    obtain ⟨part, hpart, rest, captures, captures', haccepts⟩ := exists_of_part? h hyear
    have hparts : datePattern.parts "year" =
        [.choice (.repeated (.one .digit) 4 (some 4)) (.repeated (.one .digit) 2 (some 2))] := by
      decide
    rw [hparts] at hpart
    obtain rfl := List.mem_singleton.1 hpart
    -- The part is a choice of two runs of a fixed length.
    refine .inr ⟨digits, rfl, ?_⟩
    have hexact {n : Nat} (h : Parses (.repeated (.one .digit) n (some n)) (digits ++ rest) captures rest captures') :
        digits.length = n := by
      obtain ⟨-, hleast, hmost⟩ := Accepts.run ⟨rest, captures, captures', h⟩
      exact Nat.le_antisymm (hmost n rfl) hleast
    cases haccepts with
    | first h => exact .inl (hexact h)
    | second h => exact .inr (hexact h)
  | none =>
    obtain ⟨rest, hparses⟩ := parses_of_find? h
    simp only [Found.part?] at hyear ⊢
    generalize found.captures = captures at hparses hyear
    cases hparses with
    | sequence hdate hfinish =>
    cases hfinish
    rcases hdate.optional with ⟨-, rfl⟩ | hdate
    · exact .inl ⟨trivial, rfl, rfl⟩
    · -- what is given begins with a year, which the month and the day leave as it is
      cases hdate with
      | sequence hgiven hbehind =>
        obtain ⟨digits, hdigits⟩ := hgiven.exists_lookup
        rw [hbehind.lookup_eq (by decide), hdigits] at hyear
        cases hyear

/-- A body that is a date gives a year, or nothing at all. -/
theorem start_cases {start : DateStart} (h : readDateStart (Segments.ofDelimiter delimiter) body = .date start) :
    start = {} ∨ ∃ digits, start.year = some (String.ofList digits) ∧ (digits.length = 4 ∨ digits.length = 2) := by
  rw [readDateStart] at h
  split at h
  · cases h
  · rename_i found hfound
    cases h
    rcases year_parts hfound with ⟨hyear, hmonth, hday⟩ | ⟨digits, hyear, hlength⟩
    · refine .inl ?_
      simp only [countIn?, hyear, hmonth, hday]
      rfl
    · exact .inr ⟨digits, by rw [hyear]; rfl, hlength⟩

end Parts

/-! ### Years -/

/-- The year that the digits of a start stand for: four stand for themselves, and two behind the century, which is
digits with an optional sign or nothing. -/
inductive IsCompleted (century : String) : List Char → Int → Prop
  | own {digits : List Char} (hlength : digits.length = 4) (hdigits : IsAscii digits) :
      IsCompleted century digits (digitsValue digits)
  | behindCentury {sign front digits : List Char} (hlength : digits.length = 2) (hsign : sign ∈ [[], ['+'], ['-']])
      (hcentury : century.toList = sign ++ front) (hdigits : IsAscii (front ++ digits)) :
      IsCompleted century digits
        (if sign = ['-'] then -(digitsValue (front ++ digits) : Int) else digitsValue (front ++ digits))

theorem spanSign_sign {sign digits : List Char} (hsign : sign ∈ [[], ['+'], ['-']]) (hdigits : IsAscii digits) :
    spanSign (sign ++ digits) = (decide (sign = ['-']), digits) := by
  rcases List.mem_cons.1 hsign with rfl | hsign
  · cases digits with
    | nil => rfl
    | cons c digits =>
      have hc := (List.forall_mem_cons.1 hdigits).1
      rw [List.nil_append]
      unfold spanSign
      split
      · rename_i heq
        cases heq
        cases hc
      · rename_i heq
        cases heq
        cases hc
      · rfl
  · rcases List.mem_pair.1 hsign with rfl | rfl <;> rfl

/-- A year in the range of the calendar fits into 32 bits. -/
theorem readYearNumber?_eq {sign digits : List Char} {year : Int} (hsign : sign ∈ [[], ['+'], ['-']]) (hne : digits ≠ [])
    (hdigits : IsAscii digits) (hyear : year = if sign = ['-'] then -(digitsValue digits : Int) else digitsValue digits)
    (hlow : minYear ≤ year) (hhigh : year ≤ maxYear) : readYearNumber? (sign ++ digits) = some year := by
  have hfits : -(Nat.pow 2 31 : Int) ≤ year ∧ year < Nat.pow 2 31 :=
    ⟨Int.le_trans (by decide) hlow, Int.lt_of_le_of_lt hhigh (by decide)⟩
  rw [readYearNumber?, spanSign_sign hsign hdigits]
  dsimp only
  rw [readRadix?_digits hne hdigits, Option.bind_some]
  simp only [decide_eq_true_eq]
  rw [← hyear, if_pos hfits]

theorem yearOfDigits?_eq {century : String} {digits : List Char} {year : Int} (h : IsCompleted century digits year)
    (hlow : minYear ≤ year) (hhigh : year ≤ maxYear) :
    yearOfDigits? century (String.ofList digits) = some year := by
  cases h with
  | own hlength hdigits =>
    have hne : digits ≠ [] := List.ne_nil_of_length_eq_add_one hlength
    rw [yearOfDigits?, String.length_ofList, if_neg (by omega), String.toList_ofList]
    exact @readYearNumber?_eq [] digits _ (by decide) hne hdigits rfl hlow hhigh
  | @behindCentury sign front _ hlength hsign hcentury hdigits =>
    have hne : front ++ digits ≠ [] := List.append_ne_nil_of_right_ne_nil _ (List.ne_nil_of_length_eq_add_one hlength)
    rw [yearOfDigits?, String.length_ofList, if_pos hlength, String.toList_append, String.toList_ofList, hcentury,
      List.append_assoc]
    exact readYearNumber?_eq hsign hne hdigits rfl hlow hhigh

/-! ### The start -/

/-- The month of a start, which is the present one if none is given or there is no such month. -/
def filledMonth (start : DateStart) (now : Date) : Nat :=
  (start.month.filter fun month => 1 ≤ month ∧ month ≤ 12).getD now.month

theorem filledMonth_of_given {start : DateStart} {given : Nat} (h : start.month = some given) (hfirst : 1 ≤ given)
    (hlast : given ≤ 12) (now : Date) : filledMonth start now = given := by
  simp [filledMonth, h, Option.filter, hfirst, hlast]

theorem filledMonth_of_now {start : DateStart} (h : ∀ given ∈ start.month, ¬(1 ≤ given ∧ given ≤ 12)) (now : Date) :
    filledMonth start now = now.month := by
  cases hmonth : start.month with
  | none => simp [filledMonth, hmonth]
  | some given =>
    have hnot := h given hmonth
    simp [filledMonth, hmonth, Option.filter, hnot]

theorem filledMonth_mem (start : DateStart) (now : Date) :
    1 ≤ filledMonth start now ∧ filledMonth start now ≤ 12 := by
  by_cases h : ∀ given ∈ start.month, ¬(1 ≤ given ∧ given ≤ 12)
  · rw [filledMonth_of_now h]
    exact now.month_mem
  · push Not at h
    obtain ⟨given, hgiven, hfirst, hlast⟩ := h
    rw [filledMonth_of_given hgiven hfirst hlast]
    exact ⟨hfirst, hlast⟩

/-- A date is filled in from the present one: it has the given month if there is such a month, and a day that the
month has. -/
structure IsFilledIn (start : DateStart) (year : Int) (now date : Date) : Prop where
  year_eq : date.year = year
  month_of_given : ∀ month ∈ start.month, 1 ≤ month → month ≤ 12 → date.month = month
  month_of_now : (∀ month ∈ start.month, ¬(1 ≤ month ∧ month ≤ 12)) → date.month = now.month
  day_eq : date.day = min (max (start.day.getD now.day) 1) (monthLength date.year date.month)

/-- Every year of the calendar, with whatever month and day, makes a date with the present one. -/
theorem exists_isFilledIn {start : DateStart} (hstart : start ≠ {}) {century : String} {year : Int}
    (hyear : start.year.bind (yearOfDigits? century) = some year) (hlow : minYear ≤ year) (hhigh : year ≤ maxYear)
    (now : DateTime) :
    ∃ date, resolveStart start century now = { date } ∧ IsFilledIn start year now.date date := by
  obtain ⟨hfirst, hlast⟩ := filledMonth_mem start now.date
  have hlength := @monthLength_pos year _ hfirst hlast
  have hday : 1 ≤ min (max (start.day.getD now.date.day) 1) (monthLength year (filledMonth start now.date)) := by omega
  have hmost := Nat.min_le_right (max (start.day.getD now.date.day) 1) (monthLength year (filledMonth start now.date))
  obtain ⟨date, hdate⟩ : ∃ date, Date.of? year (filledMonth start now.date)
      (min (max (start.day.getD now.date.day) 1) (monthLength year (filledMonth start now.date))) = some date :=
    ⟨⟨year, _, _, ⟨hlow, hhigh⟩, hday, hmost⟩, Date.of?_eq_some.2 ⟨rfl, rfl, rfl⟩⟩
  obtain ⟨hyearEq, hmonthEq, hdayEq⟩ := Date.of?_eq_some.1 hdate
  refine ⟨date, ?_, hyearEq, fun given hgiven hfirst hlast => ?_, fun hnone => ?_, by rw [hdayEq, hyearEq, hmonthEq]⟩
  · unfold resolveStart
    rw [if_neg hstart]
    dsimp only
    rw [hyear, Option.getD_some, ← filledMonth, Date.lastDayOfMonth_eq ⟨hlow, hhigh⟩ hfirst hlast]
    exact congrArg (fun date? : Option Date => ({ date := date?.getD now.date } : DateTime)) hdate
  · rw [hmonthEq, filledMonth_of_given hgiven hfirst hlast]
  · rw [hmonthEq, filledMonth_of_now hnone]

/-- Whatever the body of a date leaves open comes from the present moment.  With nothing given it is this moment;
otherwise it is midnight of a date in the given year, if this is a year of the calendar. -/
theorem start_filled_in {delimiter : Option String} {body : List Char} {start : DateStart}
    (h : readDateStart (Segments.ofDelimiter delimiter) body = .date start) (century : String) (now : DateTime) :
    (start = {} ∧ resolveStart start century now = now) ∨
      ∃ digits, start.year = some (String.ofList digits) ∧ (digits.length = 4 ∨ digits.length = 2) ∧
        ∀ year, IsCompleted century digits year → minYear ≤ year → year ≤ maxYear →
          ∃ date, resolveStart start century now = { date } ∧ IsFilledIn start year now.date date := by
  rcases start_cases h with rfl | ⟨digits, hyear, hlength⟩
  · exact .inl ⟨rfl, rfl⟩
  · refine .inr ⟨digits, hyear, hlength, fun year hcompleted hlow hhigh => ?_⟩
    have hne : start ≠ {} := by
      rintro rfl
      cases hyear
    have hbind : start.year.bind (yearOfDigits? century) = some year := by
      rw [hyear, Option.bind_some, yearOfDigits?_eq hcompleted hlow hhigh]
    exact exists_isFilledIn hne hbind hlow hhigh now

/-- At the end of January a start that gives a leap year and February is the 29th. -/
theorem start_filled_in_february :
    readDateStart (Segments.ofDelimiter none) "24-2".toList = .date { year := some "24", month := some 2 } ∧
      IsCompleted "20" ['2', '4'] 2024 ∧
        resolveStart { year := some "24", month := some 2 } "20" { date := ⟨2023, 1, 31, by decide⟩, hour := 9 } =
          { date := ⟨2024, 2, 29, by decide⟩ } := by
  have hread : readDateStart (Segments.ofDelimiter none) "24-2".toList =
      .date { year := some "24", month := some 2 } := by
    rw [readDateStart, Segments.find?, pattern_dateBody]
    decide
  have hcompleted : IsCompleted "20" ['2', '4'] 2024 :=
    @IsCompleted.behindCentury "20" [] ['2', '0'] ['2', '4'] rfl (by decide) (by decide) (by decide)
  refine ⟨hread, hcompleted, ?_⟩
  rcases start_filled_in hread "20" { date := ⟨2023, 1, 31, by decide⟩, hour := 9 } with ⟨hnone, -⟩ |
    ⟨digits, hdigits, -, hfilled⟩
  · cases hnone
  · obtain rfl : digits = ['2', '4'] := by
      rw [← @String.toList_ofList digits, ← Option.some.inj hdigits]
      decide
    obtain ⟨date, hstart, hdate⟩ := hfilled 2024 hcompleted (by decide) (by decide)
    have hmonth : date.month = 2 := hdate.month_of_given 2 rfl (by decide) (by decide)
    have hday : date.day = 29 := by
      rw [hdate.day_eq, hdate.year_eq, hmonth]
      decide
    obtain ⟨year, month, day, hisDate⟩ := date
    obtain rfl : year = 2024 := hdate.year_eq
    obtain rfl : month = 2 := hmonth
    obtain rfl : day = 29 := hday
    exact hstart

end SequenceNotation.Sequence
