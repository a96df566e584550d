import Mathlib.Data.Nat.Digits.Defs
import SequenceNotation.Number.Text

/-!
# The width of printed numbers

No double is printed with more than a few thousand characters.  The bounds are coarse: a power of two is
taken for the power of ten with the same exponent.
-/

namespace SequenceNotation.Number

theorem length_decimalDigits_le {n k : Nat} (hk : 0 < k) (h : n < 10 ^ k) :
    (decimalDigits n).length ≤ k :=
  Nat.toDigits_length 10 n k hk h

theorem length_zeroPadded (width : Nat) (digits : List Char) :
    (zeroPadded width digits).length = max width digits.length := by
  simp only [zeroPadded, List.length_append, List.length_replicate]
  omega

/-- No double has more digits than this before its units run out. -/
def maxUnitsDigits : Nat := 2098

theorem lt_ten_pow_of_lt_unitsLimit {units : Nat} (h : units < unitsLimit) :
    units < 10 ^ maxUnitsDigits := by
  have hpow (k : Nat) : Nat.pow 2 k ≤ 10 ^ k := Nat.pow_le_pow_left (by decide) k
  unfold unitsLimit at h
  unfold maxUnitsDigits
  exact Nat.lt_of_lt_of_le h (hpow 2098)

theorem unitsPerOne_lt_unitsLimit : Double.unitsPerOne < unitsLimit := by
  have hpow {k n : Nat} : k < n → Nat.pow 2 k < Nat.pow 2 n := Nat.pow_lt_pow_right (by decide)
  unfold Double.unitsPerOne unitsLimit
  exact @hpow 1074 2098 (by decide)

namespace Decimal

/-- A significand of at most so many digits, and an exponent of at most that size. -/
structure Within (digits size : Nat) (d : Decimal) : Prop where
  significand : d.significand < 10 ^ digits
  exponent : d.exponent.natAbs ≤ size

theorem Within.length_positional_le {digits size : Nat} {d : Decimal} (hdigits : 0 < digits)
    (h : d.Within digits size) : d.positional.length ≤ digits + size + 2 := by
  have hlength := length_decimalDigits_le hdigits h.significand
  have hexponent := h.exponent
  unfold positional
  dsimp only
  split
  · rw [List.length_append, List.length_replicate]
    omega
  · simp only [List.length_append, List.length_cons, List.length_take, List.length_drop,
      length_zeroPadded]
    omega

theorem Within.withoutTrailingZeros {digits size : Nat} (fuel : Nat) {d : Decimal}
    (h : d.Within digits size) : (d.withoutTrailingZeros fuel).Within digits (size + fuel) := by
  induction fuel generalizing d size with
  | zero => exact h
  | succ fuel ih =>
    unfold Decimal.withoutTrailingZeros
    split
    · have hless : Within digits (size + 1) ⟨d.significand / 10, d.exponent + 1⟩ :=
        ⟨Nat.lt_of_le_of_lt (Nat.div_le_self _ _) h.significand, by
          have := h.exponent
          dsimp only
          omega⟩
      rw [Nat.add_comm fuel, ← Nat.add_assoc]
      exact ih hless
    · exact ⟨h.significand, Nat.le_add_right_of_le h.exponent⟩

end Decimal

theorem natAbs_decimalMagnitude_le {num den k : Nat} (hnum : num < 10 ^ k) (hden : den < 10 ^ k)
    (hk : 0 < k) : (decimalMagnitude num den).natAbs ≤ k + 1 := by
  unfold decimalMagnitude
  split
  · have hcount : digitCount (num / den) ≤ k :=
      length_decimalDigits_le hk (Nat.lt_of_le_of_lt (Nat.div_le_self _ _) hnum)
    omega
  · -- the zeros behind the point, counted by the digits of the reciprocal
    have hcount : digitCount ((den + num - 1) / num - 1) ≤ k + 1 := by
      refine length_decimalDigits_le (Nat.succ_pos k) ?_
      have hdiv := Nat.div_le_self (den + num - 1) num
      rw [Nat.pow_succ]
      omega
    omega

theorem powerOfTen_snd_le {exponent : Int} {size : Nat} (h : exponent.natAbs ≤ size) :
    (powerOfTen exponent).2 ≤ 10 ^ size := by
  unfold powerOfTen
  split
  · exact Nat.one_le_pow _ _ (by decide)
  · exact Nat.pow_le_pow_right (by decide) (by omega)

/-- The upper decimal if it is chosen, else the lower one if it fits. -/
theorem within_of_choice {upper fits : Prop} [Decidable upper] [Decidable fits] {lower digits size : Nat}
    {exponent : Int} {d : Decimal} (hlower : lower + 1 < 10 ^ digits) (hexponent : exponent.natAbs ≤ size)
    (h : (if upper then some ⟨lower + 1, exponent⟩ else if fits then some ⟨lower, exponent⟩ else none) =
      some d) : d.Within digits size := by
  split at h
  · cases h
    exact ⟨hlower, hexponent⟩
  · split at h
    · cases h
      exact ⟨Nat.lt_of_succ_lt hlower, hexponent⟩
    · cases h

theorem within_of_decimalAt? {b : Basin} {k size : Nat} {exponent : Int} {d : Decimal}
    (hcentre : b.centre < 10 ^ k) (hexponent : exponent.natAbs ≤ size)
    (h : b.decimalAt? exponent = some d) : d.Within (k + size + 1) size := by
  have hlower (step : Nat) : b.centre * (powerOfTen exponent).2 / step + 1 < 10 ^ (k + size + 1) := by
    have hdiv := Nat.div_le_self (b.centre * (powerOfTen exponent).2) step
    have hmul : b.centre * (powerOfTen exponent).2 ≤ 10 ^ k * 10 ^ size :=
      Nat.mul_le_mul (Nat.le_of_lt hcentre) (powerOfTen_snd_le hexponent)
    have hpos : 0 < 10 ^ k * 10 ^ size := Nat.mul_pos (Nat.pow_pos (by decide)) (Nat.pow_pos (by decide))
    rw [Nat.pow_succ, Nat.pow_add]
    omega
  exact within_of_choice (hlower _) hexponent h

/-- The digits that are tried reach seventeen places on from the first one, and the zeros that are taken
away at the end are twenty at most. -/
theorem within_shortest {units : Nat} (h : units < unitsLimit) :
    (shortest units).Within (2 * maxUnitsDigits + 20) (maxUnitsDigits + 38) := by
  have hunits := lt_ten_pow_of_lt_unitsLimit h
  have hmagnitude := natAbs_decimalMagnitude_le hunits
    (lt_ten_pow_of_lt_unitsLimit unitsPerOne_lt_unitsLimit) (by decide)
  have hcentre : (basin units).centre < 10 ^ (maxUnitsDigits + 1) := by
    show 4 * units < 10 ^ (maxUnitsDigits + 1)
    rw [Nat.pow_succ]
    omega
  unfold shortest
  generalize decimalMagnitude units Double.unitsPerOne = magnitude at hmagnitude ⊢
  refine Decimal.Within.withoutTrailingZeros 20 (?_ : Decimal.Within _ (maxUnitsDigits + 18) _)
  cases hfound : (List.range 17).findSome? _ with
  | none => exact ⟨Nat.pow_pos (by decide), Nat.zero_le _⟩
  | some d =>
    obtain ⟨n, hn, hd⟩ := List.exists_of_findSome?_eq_some hfound
    have hn' := List.mem_range.1 hn
    have hexponent : (magnitude - n).natAbs ≤ maxUnitsDigits + 18 := by omega
    have hwithin := within_of_decimalAt? hcentre hexponent hd
    rwa [show maxUnitsDigits + 1 + (maxUnitsDigits + 18) + 1 = 2 * maxUnitsDigits + 20 by omega] at hwithin

theorem length_fixedPlaces_le {units : Nat} (places : Nat) (h : units < unitsLimit) :
    (fixedPlaces places units).length ≤ 2 * places + maxUnitsDigits + 3 := by
  have hunits := lt_ten_pow_of_lt_unitsLimit h
  have hscaled : roundHalfEven (units * Nat.pow 10 places) Double.unitsPerOne <
      10 ^ (maxUnitsDigits + places + 1) := by
    have hround := roundHalfEven_le_succ (units * Nat.pow 10 places) Double.unitsPerOne
    have hdiv := Nat.div_le_self (units * Nat.pow 10 places) Double.unitsPerOne
    have hpos : 0 < 10 ^ places := Nat.pow_pos (by decide)
    have hmul : units * Nat.pow 10 places < 10 ^ (maxUnitsDigits + places) := by
      rw [Nat.pow_add]
      exact Nat.mul_lt_mul_of_pos_right hunits hpos
    rw [Nat.pow_succ]
    omega
  unfold fixedPlaces
  generalize roundHalfEven (units * Nat.pow 10 places) Double.unitsPerOne = scaled at hscaled ⊢
  dsimp only
  split
  · -- no places, so there is no point
    have hlength := length_decimalDigits_le (Nat.succ_pos _) hscaled
    omega
  · have hwithin : Decimal.Within (maxUnitsDigits + places + 1) places ⟨scaled, -(places : Int)⟩ :=
      ⟨hscaled, by simp⟩
    have hlength := hwithin.length_positional_le (Nat.succ_pos _)
    omega

namespace Double

theorem length_signed_le (negative : Bool) (digits : List Char) :
    (signed negative digits).length ≤ digits.length + 1 := by
  cases negative
  · exact Nat.le_succ _
  · exact Nat.le_refl _

theorem length_toText_le (x : Double) : x.toText.length ≤ 3 * maxUnitsDigits + 100 := by
  cases x with
  | nan => decide
  | infinite negative => cases negative <;> decide
  | finite negative units h =>
    unfold toText
    dsimp only
    split
    · decide
    · split
      · have hwhole := length_decimalDigits_le (n := units / unitsPerOne) (k := maxUnitsDigits)
          (by decide) (Nat.lt_of_le_of_lt (Nat.div_le_self _ _) (lt_ten_pow_of_lt_unitsLimit h.2))
        have hsigned := length_signed_le negative (decimalDigits (units / unitsPerOne))
        rw [String.length_ofList]
        omega
      · have hlength := (within_shortest h.2).length_positional_le (by decide)
        have hsigned := length_signed_le negative (shortest units).positional
        rw [String.length_ofList]
        omega

theorem length_toFixed_le (places : Nat) (x : Double) :
    (x.toFixed places).length ≤ 2 * places + maxUnitsDigits + 4 := by
  cases x with
  | nan =>
    have hword : "NaN".length ≤ 4 := by decide
    exact Nat.le_trans hword (Nat.le_add_left _ _)
  | infinite negative =>
    have hword : (if negative then "-inf" else "inf").length ≤ 4 := by cases negative <;> decide
    exact Nat.le_trans hword (Nat.le_add_left _ _)
  | finite negative units h =>
    have hlength := length_fixedPlaces_le places h.2
    have hsigned := length_signed_le negative (fixedPlaces places units)
    unfold toFixed
    rw [String.length_ofList]
    omega

end Double

end SequenceNotation.Number
