import SequenceNotation.Proofs.Calendar.Days
import SequenceNotation.Proofs.Sequence.Folding
import SequenceNotation.Sequence.Kind.Date

/-!
# Sequences of dates keep to the calendar

Every date of a sequence is counted from its start, so that a day that a shorter month has cut off comes back in a
longer one.
-/

namespace SequenceNotation.Sequence.DateSequence

open SequenceNotation.Calendar SequenceNotation.Number

/-- The date at an index is the one so many days, weeks, months or years after the start, with the time of the day
of the start.  Wherever the same start has the same distance, the date is the same. -/
theorem dateAt_of_isUnitsAfter {sequence : DateSequence} {step : Int} {index : Nat} {moment : DateTime}
    (hstep : sequence.folding.step.integer? = some step) (hindex : index < 2 ^ 64)
    (hmoment : moment.IsUnitsAfter sequence.start (step * sequence.folding.fold index) sequence.unit) :
    sequence.dateAt index = moment ∧
      ∀ (other : DateSequence) (step' : Int) (index' : Nat), other.start = sequence.start →
        other.unit = sequence.unit → other.folding.step.integer? = some step' → index' < 2 ^ 64 →
        step' * other.folding.fold index' = step * sequence.folding.fold index →
        other.dateAt index' = moment := by
  have hexact (other : DateSequence) (step' : Int) (index' : Nat) (hstart : other.start = sequence.start)
      (hunit : other.unit = sequence.unit) (hstep' : other.folding.step.integer? = some step')
      (hindex' : index' < 2 ^ 64)
      (hdistance : step' * other.folding.fold index' = step * sequence.folding.fold index) :
      other.dateAt index' = moment := by
    -- distances within the calendar are small
    have hsteps := Folding.toInt64_logicalIndex hstep' hindex'
      (hdistance ▸ Nat.le_trans hmoment.natAbs_le (by decide))
    unfold dateAt
    dsimp only
    rw [hsteps, hdistance, hstart, hunit, DateTime.shift?_eq_some_iff.2 hmoment]
    rfl
  exact ⟨hexact sequence step index rfl rfl hstep hindex rfl, hexact⟩

/-- The last day of January and the same day of the months behind it. -/
def endOfMonth : DateSequence where
  start := { date := ⟨2024, 1, 31, by decide⟩, hour := 9, minute := 30 }
  unit := .month
  folding := {}
  template := isoTemplate
  language := "en"

/-- February cuts the day off, and March has it again. -/
theorem dateAt_endOfMonth :
    endOfMonth.dateAt 1 = { date := ⟨2024, 2, 29, by decide⟩, hour := 9, minute := 30 } ∧
      endOfMonth.dateAt 2 = { date := ⟨2024, 3, 31, by decide⟩, hour := 9, minute := 30 } := by
  have hstep : endOfMonth.folding.step.integer? = some 1 :=
    Double.integer?_literal (show 1 ≤ Double.exactLimit by decide)
  exact ⟨(dateAt_of_isUnitsAfter hstep (by decide) (by decide)).1,
    (dateAt_of_isUnitsAfter hstep (by decide) (by decide)).1⟩

end SequenceNotation.Sequence.DateSequence
