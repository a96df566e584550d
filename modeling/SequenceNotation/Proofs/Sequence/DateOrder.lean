import SequenceNotation.Proofs.Calendar.Order
import SequenceNotation.Proofs.Number.Order
import SequenceNotation.Proofs.Sequence.Folding
import SequenceNotation.Sequence.Kind.Date

/-!
# Sequences of dates that go forward

With a positive step and without an end of the cycle the distance from the start never falls, whatever is rounded on
the way.  So the dates never run backwards as long as they are in the calendar.  Behind the last one that is, every
date is the start again.
-/

namespace SequenceNotation.Sequence

open SequenceNotation.Calendar SequenceNotation.Number

/-! ### Distances -/

namespace Folding

variable {folding : Folding} {i j : Nat}

/-- A cycle without an end counts on. -/
theorem fold_mono (hrepetition : folding.repetition.getD 0 = 0) (hstartover : folding.startover.getD 0 = 0)
    (h : i ≤ j) : folding.fold i ≤ folding.fold j := by
  have hplace (index : Nat) : folding.place index = index := by
    rw [place, cycle?, startover?, filter_pos_eq_none hrepetition, filter_pos_eq_none hstartover]
    rfl
  rw [fold, fold, hplace, hplace]
  exact Nat.div_le_div_right h

/-- With a positive step the distance is not negative, and is no smaller behind more steps. -/
theorem toInt64_logicalIndex_mono (hstep : (0 : Double).less folding.step = true)
    (h : folding.fold i ≤ folding.fold j) :
    0 ≤ (folding.logicalIndex i).round.toInt64 ∧
      (folding.logicalIndex i).round.toInt64 ≤ (folding.logicalIndex j).round.toInt64 := by
  have hzero : (0 : Double).round.toInt64 = 0 := by decide +kernel
  have hnone (index : Nat) (hfold : folding.fold index = 0) : (folding.logicalIndex index).round.toInt64 = 0 :=
    toInt_logicalIndex_of_fold hfold (by decide) (by decide)
  have hpositive (index : Nat) (hfold : 0 < folding.fold index) : 0 ≤ (folding.logicalIndex index).round.toInt64 := by
    have hrounded := Double.toInt64_round_mono (Double.zero_atMost_mul hstep (Double.ofNat_pos hfold))
    rwa [hzero] at hrounded
  -- an infinite step makes no number in front of the first step
  rcases Nat.eq_zero_or_pos (folding.fold i) with hi | hi
  · rw [hnone i hi]
    refine ⟨Int.le_refl 0, ?_⟩
    rcases Nat.eq_zero_or_pos (folding.fold j) with hj | hj
    · exact Int.le_of_eq (hnone j hj).symm
    · exact hpositive j hj
  · exact ⟨hpositive i hi,
      Double.toInt64_round_mono (Double.atMost_mul hstep (Double.ofNat_pos hi) (Double.atMost_ofNat h))⟩

end Folding

/-! ### Dates -/

namespace DateSequence

/-- The count of units from the start to the date at an index. -/
def distance (sequence : DateSequence) (index : Nat) : Int :=
  (sequence.folding.logicalIndex index).round.toInt64

/-- Whether the calendar has a date so many units after the start. -/
def Reaches (sequence : DateSequence) (index : Nat) : Prop :=
  ∃ moment : DateTime, moment.IsUnitsAfter sequence.start (sequence.distance index) sequence.unit

variable {sequence : DateSequence} {i j : Nat}

theorem dateAt_of_isUnitsAfter_distance {moment : DateTime}
    (h : moment.IsUnitsAfter sequence.start (sequence.distance i) sequence.unit) : sequence.dateAt i = moment :=
  congrArg (·.getD sequence.start) (DateTime.shift?_eq_some_iff.2 h)

theorem dateAt_of_not_reaches (h : ¬sequence.Reaches i) : sequence.dateAt i = sequence.start := by
  have hnone : sequence.start.shift? (sequence.distance i) sequence.unit = none := by
    rw [Option.eq_none_iff_forall_ne_some]
    exact fun moment hmoment => h ⟨moment, DateTime.shift?_eq_some_iff.1 hmoment⟩
  exact congrArg (·.getD sequence.start) hnone

/-- Of two indices that are reached, the later one has no earlier date if its distance is no smaller. -/
theorem dateAt_le_dateAt (hi : sequence.Reaches i) (hj : sequence.Reaches j)
    (h : sequence.distance i ≤ sequence.distance j) : sequence.dateAt i ≤ sequence.dateAt j := by
  obtain ⟨first, hfirst⟩ := hi
  obtain ⟨last, hlast⟩ := hj
  rw [dateAt_of_isUnitsAfter_distance hfirst, dateAt_of_isUnitsAfter_distance hlast]
  exact hfirst.le hlast h

theorem start_le_dateAt (h : 0 ≤ sequence.distance i) : sequence.start ≤ sequence.dateAt i := by
  by_cases hi : sequence.Reaches i
  · obtain ⟨moment, hmoment⟩ := hi
    rw [dateAt_of_isUnitsAfter_distance hmoment]
    exact (DateTime.isUnitsAfter_zero sequence.start sequence.unit).le hmoment h
  · rw [dateAt_of_not_reaches hi]
    exact DateTime.le_refl sequence.start

/-- A date that is not behind the start is no other one. -/
theorem eq_start_of_le (hpositive : 0 ≤ sequence.distance i) (h : sequence.dateAt i ≤ sequence.start) :
    sequence.dateAt i = sequence.start := by
  by_cases hi : sequence.Reaches i
  · have hdate := Date.le_antisymm h.1 (start_le_dateAt hpositive).1
    obtain ⟨moment, hmoment⟩ := hi
    rw [dateAt_of_isUnitsAfter_distance hmoment] at hdate ⊢
    rw [hmoment.1, hdate]
  · exact dateAt_of_not_reaches hi

/-- With a positive step and without an end of the cycle, dates never run backwards within the calendar.  An index
that the calendar does not reach has the start as its date, and so have all later ones. -/
theorem dateAt_le_iff (hstep : (0 : Double).less sequence.folding.step = true)
    (hrepetition : sequence.folding.repetition.getD 0 = 0) (hstartover : sequence.folding.startover.getD 0 = 0)
    (h : i ≤ j) :
    (sequence.dateAt i ≤ sequence.dateAt j ↔ sequence.Reaches j ∨ sequence.dateAt i = sequence.start) ∧
      (sequence.Reaches j → sequence.Reaches i) ∧ (¬sequence.Reaches j → sequence.dateAt j = sequence.start) := by
  obtain ⟨hpositive, hdistance⟩ :=
    Folding.toInt64_logicalIndex_mono hstep (Folding.fold_mono hrepetition hstartover h)
  have hback : sequence.Reaches j → sequence.Reaches i := by
    rintro ⟨moment, hmoment⟩
    exact DateTime.exists_isUnitsAfter hmoment hpositive hdistance
  refine ⟨⟨?_, ?_⟩, hback, dateAt_of_not_reaches⟩
  · intro hle
    refine or_iff_not_imp_left.2 fun hj => ?_
    rw [dateAt_of_not_reaches hj] at hle
    exact eq_start_of_le hpositive hle
  · rintro (hj | hstart)
    · exact dateAt_le_dateAt (hback hj) hj hdistance
    · rw [hstart]
      exact start_le_dateAt (Int.le_trans hpositive hdistance)

/-- Half a month at each index, from the last day of January on. -/
def halfMonths : DateSequence where
  start := { date := ⟨2023, 1, 31, by decide⟩, hour := 9, minute := 30 }
  unit := .month
  folding := { step := 1 / 2 }
  template := isoTemplate
  language := "en"

/-- Half a month is rounded to a month, whose end is cut off, and three halves to two. -/
theorem dateAt_le_halfMonths : halfMonths.dateAt 1 ≤ halfMonths.dateAt 3 ∧
    halfMonths.dateAt 1 = { halfMonths.start with date := ⟨2023, 2, 28, by decide⟩ } ∧
    halfMonths.dateAt 3 = { halfMonths.start with date := ⟨2023, 3, 31, by decide⟩ } := by
  have hstep : (0 : Double).less halfMonths.folding.step = true := by decide +kernel
  have hreaches : halfMonths.Reaches 3 :=
    ⟨{ halfMonths.start with date := ⟨2023, 3, 31, by decide⟩ }, by decide +kernel⟩
  exact ⟨(dateAt_le_iff hstep rfl rfl (by decide)).1.2 (.inl hreaches), by decide +kernel, by decide +kernel⟩

/-- A hundred thousand years at each index, from the last day of the year 9999 on. -/
def farYears : DateSequence where
  start := { date := ⟨9999, 12, 31, by decide⟩ }
  unit := .year
  folding := { step := 100000 }
  template := isoTemplate
  language := "en"

/-- The third step leads out of the calendar, and the sequence is back at its start. -/
theorem dateAt_runs_backwards :
    ((0 : Double).less farYears.folding.step = true ∧ farYears.folding.repetition = none ∧
      farYears.folding.startover = none) ∧
    farYears.dateAt 2 = { date := ⟨209999, 12, 31, by decide⟩ } ∧ farYears.dateAt 3 = farYears.start ∧
    ¬farYears.dateAt 2 ≤ farYears.dateAt 3 := by
  decide +kernel

end DateSequence

end SequenceNotation.Sequence
