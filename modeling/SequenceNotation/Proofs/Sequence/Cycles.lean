import Mathlib.Algebra.Group.Nat.Defs
import SequenceNotation.Sequence.Folding

/-!
# Cycles of steps

The count of steps is a formula of three divisions.  A length that is absent or zero divides nothing, and a length that
64 bits do not hold is longer than every index, so that leaving it out changes no count.  From one index to the next the
place in the cycle either goes up by one or is the beginning again; whatever holds within a cycle comes from that.
-/

namespace SequenceNotation.Sequence

theorem placeIn_filter_pos (length : Option Nat) (index : Nat) :
    placeIn (length.filter (0 < ·)) index = index % length.getD 0 := by
  match length with
  | none => exact (Nat.mod_zero index).symm
  | some 0 => exact (Nat.mod_zero index).symm
  | some (_ + 1) => rfl

theorem placeIn_checkedProduct? {index : Nat} (h : index < 2 ^ 64) (m n : Nat) :
    placeIn (checkedProduct? m n) index = index % (m * n) := by
  unfold checkedProduct?
  split
  · rfl
  · -- the round is longer than the index
    exact (Nat.mod_eq_of_lt (Nat.lt_of_lt_of_le h (Nat.not_lt.1 ‹_›))).symm

/-- A remainder goes up by one or is zero again; by zero it always goes up. -/
theorem succ_mod_eq (n length : Nat) : (n + 1) % length = 0 ∨ (n + 1) % length = n % length + 1 := by
  rw [← Nat.mod_add_mod]
  rcases Nat.eq_zero_or_pos length with rfl | hpos
  · exact .inr (Nat.mod_zero _)
  · have hle : n % length + 1 ≤ length := Nat.mod_lt n hpos
    rcases Nat.lt_or_eq_of_le hle with hlt | hlast
    · exact .inr (Nat.mod_eq_of_lt hlt)
    · exact .inl (by rw [hlast, Nat.mod_self])

namespace Folding

variable {folding : Folding} {i j : Nat}

theorem placeIn_cycle? (h : i < 2 ^ 64) :
    placeIn folding.cycle? i = i % (folding.stepLength * folding.repetition.getD 0) := by
  unfold cycle?
  match folding.repetition with
  | none => exact (Nat.mod_zero i).symm
  | some 0 => exact (Nat.mod_zero i).symm
  | some (repetition + 1) => exact (placeIn_checkedProduct? h _ _).trans (by rw [Nat.mul_comm]; rfl)

/-- The place of an index is what two remainders leave. -/
theorem place_eq (h : i < 2 ^ 64) :
    folding.place i = i % folding.startover.getD 0 % (folding.stepLength * folding.repetition.getD 0) := by
  have hround := placeIn_filter_pos folding.startover i
  have hbound := Nat.lt_of_le_of_lt (placeIn_le folding.startover? i) h
  rw [place, placeIn_cycle? hbound, startover?, hround]

theorem pos_of_mem_startover? {length : Nat} (h : length ∈ folding.startover?) : 0 < length := by
  simpa using (Option.mem_filter_iff.1 h).2

theorem pos_of_mem_cycle? {length : Nat} (h : length ∈ folding.cycle?) : 0 < length := by
  obtain ⟨repetition, hrepetition, hproduct⟩ := Option.bind_eq_some_iff.1 h
  have hpos : 0 < repetition := by simpa using (Option.mem_filter_iff.1 hrepetition).2
  obtain ⟨-, hlength⟩ := Option.ite_none_right_eq_some.1 hproduct
  rw [← Option.some.inj hlength]
  exact Nat.mul_pos hpos folding.stepLength_pos

theorem fold_lt_repetition {repetition : Nat} (h : folding.repetition = some repetition) (hpos : 0 < repetition)
    (hi : i < 2 ^ 64) : folding.fold i < repetition := by
  rw [fold, place_eq hi, h]
  exact Nat.div_lt_of_lt_mul (Nat.mod_lt _ (Nat.mul_pos folding.stepLength_pos hpos))

/-! ### Periods -/

theorem fold_add_startover {length : Nat} (h : folding.startover = some length) (hi : i + length < 2 ^ 64) :
    folding.fold (i + length) = folding.fold i := by
  rw [fold, fold, place_eq hi, place_eq (Nat.lt_of_le_of_lt (Nat.le_add_right i length) hi), h, Option.getD_some,
    Nat.add_mod_right]

theorem fold_add_cycle {repetition : Nat} (h : folding.repetition = some repetition)
    (hstartover : folding.startover.getD 0 = 0) (hi : i + folding.stepLength * repetition < 2 ^ 64) :
    folding.fold (i + folding.stepLength * repetition) = folding.fold i := by
  rw [fold, fold, place_eq hi, place_eq (Nat.lt_of_le_of_lt (Nat.le_add_right _ _) hi), h, hstartover, Nat.mod_zero,
    Nat.mod_zero, Option.getD_some, Nat.add_mod_right]

/-! ### Within one cycle -/

theorem place_succ (h : i + 1 < 2 ^ 64) :
    folding.place (i + 1) = 0 ∨ folding.place (i + 1) = folding.place i + 1 := by
  rw [place_eq h, place_eq (Nat.lt_of_succ_lt h)]
  rcases succ_mod_eq i (folding.startover.getD 0) with hfirst | hnext
  · exact .inl (by rw [hfirst, Nat.zero_mod])
  · rw [hnext]
    exact succ_mod_eq _ _

/-- Behind the first index, up to the second one, nothing begins again. -/
def SameCycle (folding : Folding) (i j : Nat) : Prop :=
  ∀ k, i < k → k ≤ j → folding.place k ≠ 0

theorem place_add {m : Nat} (hm : i + m < 2 ^ 64) (h : folding.SameCycle i (i + m)) :
    folding.place (i + m) = folding.place i + m := by
  induction m with
  | zero => rfl
  | succ m ih =>
    have hback := ih (Nat.lt_of_succ_lt hm) fun k hk hkm => h k hk (Nat.le_succ_of_le hkm)
    have hbehind : i < i + (m + 1) := Nat.lt_add_of_pos_right (Nat.succ_pos m)
    have hnext : folding.place (i + m + 1) = folding.place (i + m) + 1 :=
      (place_succ hm).resolve_left (h _ hbehind (Nat.le_refl _))
    rw [← Nat.add_assoc, hnext, hback, Nat.add_assoc]

theorem fold_le_of_sameCycle (hij : i ≤ j) (hj : j < 2 ^ 64) (h : folding.SameCycle i j) :
    folding.fold i ≤ folding.fold j := by
  obtain ⟨m, rfl⟩ := Nat.exists_eq_add_of_le hij
  rw [fold, fold, place_add hj h]
  exact Nat.div_le_div_right (Nat.le_add_right _ _)

theorem fold_of_block {block m : Nat} (hplace : folding.place i = block * folding.stepLength)
    (hm : m < folding.stepLength) (hi : i + m < 2 ^ 64) (h : folding.SameCycle i (i + m)) :
    folding.fold (i + m) = block := by
  rw [fold, place_add hi h, hplace, Nat.mul_comm, Nat.mul_add_div folding.stepLength_pos, Nat.div_eq_of_lt hm,
    Nat.add_zero]

/-- No division is by zero.  At every index of 64 bits the count of steps is what two remainders and a quotient of
unbounded integers leave, where a length that is absent or zero leaves everything as it is.  So the count stays below
the repetition, and comes again with the startover, or with the cycle where there is no startover.  Within a cycle it
never falls, and it stays what it is for the length of each step. -/
theorem fold_follows_formula (folding : Folding) :
    (0 < folding.stepLength ∧ (∀ length ∈ folding.startover?, 0 < length) ∧ ∀ length ∈ folding.cycle?, 0 < length) ∧
      (∀ i < 2 ^ 64,
        folding.place i = i % folding.startover.getD 0 % (max folding.frequency 1 * folding.repetition.getD 0) ∧
          folding.fold i = folding.place i / max folding.frequency 1) ∧
      (∀ repetition, folding.repetition = some repetition → 0 < repetition →
        ∀ i < 2 ^ 64, folding.fold i < repetition) ∧
      (∀ length, folding.startover = some length →
        ∀ i, i + length < 2 ^ 64 → folding.fold (i + length) = folding.fold i) ∧
      (∀ repetition, folding.repetition = some repetition → folding.startover.getD 0 = 0 →
        ∀ i, i + max folding.frequency 1 * repetition < 2 ^ 64 →
          folding.fold (i + max folding.frequency 1 * repetition) = folding.fold i) ∧
      (∀ i j, i ≤ j → j < 2 ^ 64 → folding.SameCycle i j → folding.fold i ≤ folding.fold j) ∧
      ∀ i block m, folding.place i = block * max folding.frequency 1 → m < max folding.frequency 1 →
        i + m < 2 ^ 64 → folding.SameCycle i (i + m) → folding.fold (i + m) = block :=
  ⟨⟨folding.stepLength_pos, fun _ => pos_of_mem_startover?, fun _ => pos_of_mem_cycle?⟩,
    fun _ hi => ⟨place_eq hi, rfl⟩,
    fun _ h hpos _ hi => fold_lt_repetition h hpos hi,
    fun _ h _ hi => fold_add_startover h hi,
    fun _ h hstartover _ hi => fold_add_cycle h hstartover hi,
    fun _ _ hij hj h => fold_le_of_sameCycle hij hj h,
    fun _ _ _ hplace hm hi h => fold_of_block hplace hm hi h⟩

/-- A cycle that 64 bits do not hold is none. -/
example : ({ frequency := 2 ^ 33, repetition := some (2 ^ 33) } : Folding).cycle? = none := by decide

end Folding

end SequenceNotation.Sequence
