import SequenceNotation.Proofs.Number.Whole
import SequenceNotation.Sequence.Folding

/-!
# Whole distances

With a whole step the distance from the start is a whole number.  It is exact as long as it is in the range in which
all integers are doubles, whatever the size of the step and of the index on their own.
-/

namespace SequenceNotation.Sequence.Folding

open SequenceNotation.Number

/-- In front of the first step there is no distance, whatever the step is. -/
theorem toInt_logicalIndex_of_fold {folding : Folding} {index : Nat} (h : folding.fold index = 0) {low high : Int}
    (hlow : low ≤ 0) (hhigh : 0 ≤ high) : (folding.logicalIndex index).round.toInt low high = 0 := by
  obtain ⟨hgrid, hzero⟩ := Double.exists_nearest_zero
  have hnone : Double.ofNat 0 = .finite false 0 hgrid := Double.zero_eq_nearest.trans hzero
  rw [logicalIndex, h, hnone]
  cases folding.step with
  | nan => rfl
  | infinite negative => rfl
  | finite negative units hgrid' =>
    have hproduct : (Double.finite negative units hgrid' * .finite false 0 hgrid).integer? = some 0 := by
      rw [Double.mul_finite, Nat.mul_zero, Double.integer?_nearest_zero _ unitsPerOne_pos]
    rw [Double.toInt_of_integer? (Double.integer?_round hproduct)]
    omega

/-- A whole step is taken exactly as often as the index says. -/
theorem integer?_logicalIndex {folding : Folding} {step : Int} {index : Nat}
    (hstep : folding.step.integer? = some step) (hindex : index < 2 ^ 64)
    (hdistance : (step * folding.fold index).natAbs ≤ Double.exactLimit) :
    (folding.logicalIndex index).integer? = some (step * folding.fold index) := by
  unfold logicalIndex
  rcases Decidable.eq_or_ne step 0 with rfl | hne
  · -- a count beyond the exact range may be rounded, but is finite
    have hfinite := Double.isFinite_ofNat (Nat.lt_of_le_of_lt (folding.fold_le index) hindex)
    rw [Int.zero_mul]
    exact Double.integer?_zero_mul hstep hfinite
  · have hfold : folding.fold index ≤ Double.exactLimit := by
      refine Nat.le_trans ?_ hdistance
      rw [Int.natAbs_mul, Int.natAbs_natCast]
      exact Nat.le_mul_of_pos_left _ (Int.natAbs_pos.2 hne)
    exact Double.integer?_mul hstep (Double.integer?_ofNat hfold) hdistance

/-- A distance in the exact range is a whole number of steps. -/
theorem toInt64_logicalIndex {folding : Folding} {step : Int} {index : Nat}
    (hstep : folding.step.integer? = some step) (hindex : index < 2 ^ 64)
    (hdistance : (step * folding.fold index).natAbs ≤ Double.exactLimit) :
    (folding.logicalIndex index).round.toInt64 = step * folding.fold index := by
  have hround := Double.integer?_round (integer?_logicalIndex hstep hindex hdistance)
  rw [Double.toInt64, Double.toInt_of_integer? hround]
  generalize step * (folding.fold index : Int) = distance at hdistance
  have hlimit : Double.exactLimit = 9007199254740992 := by decide
  have hpow : Nat.pow 2 63 = 9223372036854775808 := rfl
  rw [hpow]
  omega

end SequenceNotation.Sequence.Folding
