import SequenceNotation.Number.Double

/-!
# Folding

An index counts emissions.  It is folded into a count of steps: each step lasts for `frequency` emissions,
the steps begin again after `repetition` of them, and everything begins again after `startover` emissions.
-/

namespace SequenceNotation.Sequence

open SequenceNotation.Number

structure Folding where
  step : Double := 1
  frequency : Nat := 1
  repetition : Option Nat := none
  startover : Option Nat := none
  deriving DecidableEq

/-- The product of two numbers, if 64 bits hold it. -/
def checkedProduct? (m n : Nat) : Option Nat :=
  if m * n < Nat.pow 2 64 then some (m * n) else none

/-- The place of an index in rounds of one length.  Without a length there is a single round. -/
def placeIn (length : Option Nat) (index : Nat) : Nat :=
  match length with
  | some length => index % length
  | none => index

theorem placeIn_le (length : Option Nat) (index : Nat) : placeIn length index ≤ index := by
  cases length with
  | some length => exact Nat.mod_le index length
  | none => exact Nat.le_refl index

/-- A length of zero is none. -/
theorem filter_pos_eq_none {length : Option Nat} (h : length.getD 0 = 0) : length.filter (0 < ·) = none := by
  cases length with
  | some length => simp_all
  | none => rfl

namespace Folding

/-- The count of emissions that a step lasts for. -/
def stepLength (folding : Folding) : Nat :=
  max folding.frequency 1

/-- The count of emissions behind which everything begins again.  Zero is none. -/
def startover? (folding : Folding) : Option Nat :=
  folding.startover.filter (0 < ·)

/-- The count of emissions behind which the steps begin again.  A count that 64 bits do not hold is never reached,
and is none. -/
def cycle? (folding : Folding) : Option Nat :=
  (folding.repetition.filter (0 < ·)).bind (checkedProduct? · folding.stepLength)

/-- The place of an index in its cycle. -/
def place (folding : Folding) (index : Nat) : Nat :=
  placeIn folding.cycle? (placeIn folding.startover? index)

/-- The count of steps at an index. -/
def fold (folding : Folding) (index : Nat) : Nat :=
  folding.place index / folding.stepLength

/-- The distance from the start at an index. -/
def logicalIndex (folding : Folding) (index : Nat) : Double :=
  folding.step * Double.ofNat (folding.fold index)

theorem stepLength_pos (folding : Folding) : 0 < folding.stepLength :=
  Nat.lt_of_lt_of_le Nat.zero_lt_one (Nat.le_max_right _ _)

theorem place_le (folding : Folding) (index : Nat) : folding.place index ≤ index :=
  Nat.le_trans (placeIn_le _ _) (placeIn_le _ _)

theorem fold_le (folding : Folding) (index : Nat) : folding.fold index ≤ index :=
  Nat.le_trans (Nat.div_le_self _ _) (folding.place_le index)

end Folding

end SequenceNotation.Sequence
