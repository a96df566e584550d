import Mathlib.Algebra.Order.Field.Power
import Mathlib.Tactic.FieldSimp
import Mathlib.Tactic.Linarith
import Mathlib.Tactic.Positivity
import Mathlib.Tactic.Ring
import SequenceNotation.Number.Decimal

/-!
# The numbers that round to a double

A basin is the set of numbers that round to one double.  That it is so is shown here: what lies in the
basin of a count of units is nearest to this count.  Every decimal that is chosen for a basin lies in it, and
with seventeen digits there is always one.
-/

namespace SequenceNotation.Number

/-! ### Rounding to the nearest -/

/-- What is at most half away from a whole number, and half only from an even one, is rounded to it. -/
theorem roundHalfEven_eq {num den k : Nat} (hlow : 2 * (k * den) ≤ 2 * num + den)
    (hhigh : 2 * num ≤ 2 * (k * den) + den) (hden : 0 < den)
    (htie : 2 * (k * den) = 2 * num + den ∨ 2 * num = 2 * (k * den) + den → k % 2 = 0) :
    roundHalfEven num den = k := by
  have hnum : num / den * den + num % den = num := Nat.div_add_mod' num den
  have hrest : num % den < den := Nat.mod_lt num hden
  unfold roundHalfEven
  dsimp only
  generalize num / den = q at hnum
  generalize num % den = r at hnum hrest
  -- the quotient is the number or the one below
  have hk : k = q ∨ k = q + 1 := by
    rcases Nat.lt_trichotomy k q with hless | heq | hmore
    · have hmul : (k + 1) * den ≤ q * den := Nat.mul_le_mul_right den hless
      rw [Nat.succ_mul] at hmul
      omega
    · exact .inl heq
    · by_contra hne
      have hmul : (q + 2) * den ≤ k * den := Nat.mul_le_mul_right den (by omega)
      rw [Nat.add_mul] at hmul
      omega
  rcases hk with rfl | rfl
  · split
    · rfl
    · rw [if_neg (by omega), if_pos (htie (by omega))]
  · have hmul : (q + 1) * den = q * den + den := Nat.succ_mul q den
    rw [hmul] at hlow hhigh htie
    rw [if_neg (by omega)]
    split
    · rfl
    · rw [if_neg (by omega)]

/-! ### The distance between neighbours -/

theorem spacing_pos (n : Nat) : 0 < spacing n :=
  Nat.two_pow_pos _

theorem bitLength_mono {m n : Nat} (h : m ≤ n) : bitLength m ≤ bitLength n :=
  bitLength_le (Nat.lt_of_le_of_lt h (lt_two_pow_bitLength n))

theorem two_pow_le {n : Nat} (h : 0 < n) : 2 ^ (bitLength n - 1) ≤ n := by
  have hne : n ≠ 0 := Nat.ne_of_gt h
  unfold bitLength
  rw [if_neg hne, Nat.add_sub_cancel]
  exact Nat.log2_self_le hne

theorem lt_bitLength {n k : Nat} (h : 2 ^ k ≤ n) : k < bitLength n := by
  by_contra hle
  have hn : n < 2 ^ bitLength n := lt_two_pow_bitLength n
  have hpow : 2 ^ bitLength n ≤ 2 ^ k := Nat.pow_le_pow_right (by decide) (Nat.not_lt.1 hle)
  omega

/-- A number is below `2 ^ 53` of its steps. -/
theorem lt_mul_spacing (n : Nat) : n < 2 ^ 53 * spacing n := by
  have hn : n < 2 ^ bitLength n := lt_two_pow_bitLength n
  have hpow : 2 ^ bitLength n ≤ 2 ^ (53 + (bitLength n - 53)) :=
    Nat.pow_le_pow_right (by decide) (by omega)
  rw [Nat.pow_add] at hpow
  exact Nat.lt_of_lt_of_le hn hpow

theorem spacing_eq_one {n : Nat} (h : bitLength n ≤ 53) : spacing n = 1 := by
  unfold spacing
  rw [Nat.sub_eq_zero_of_le h]

theorem spacing_mono {m n : Nat} (h : m ≤ n) : spacing m ≤ spacing n :=
  Nat.pow_le_pow_right (by decide) (Nat.sub_le_sub_right (bitLength_mono h) 53)

theorem two_pow_eq {n k : Nat} (h : 53 ≤ bitLength n) (hk : k ≤ 53) :
    2 ^ (bitLength n - k) = 2 ^ (53 - k) * spacing n := by
  unfold spacing
  rw [Nat.pow_eq, ← Nat.pow_add]
  congr 1
  omega

section

variable {units v : Nat}

/-- The step of a double is that of the numbers above it up to its neighbour. -/
theorem spacing_above (hdvd : spacing units ∣ units) (hlow : units ≤ v) (hhigh : v < units + spacing units) :
    spacing v = spacing units := by
  by_cases hsmall : bitLength units ≤ 53
  · -- the neighbour is the next number
    have hone := spacing_eq_one hsmall
    have hv : v = units := by omega
    rw [hv]
  · obtain ⟨k, hk⟩ := hdvd
    have hlt := lt_mul_spacing units
    have hpow := two_pow_eq (Nat.le_of_not_le hsmall) (Nat.zero_le 53)
    have hle : bitLength v ≤ bitLength units := by
      refine bitLength_le ?_
      show v < 2 ^ (bitLength units - 0)
      rw [hpow]
      have hk53 : k < 2 ^ 53 := by
        by_contra hge
        have hmul := Nat.mul_le_mul_left (spacing units) (Nat.not_lt.1 hge)
        omega
      have hmul : spacing units * (k + 1) ≤ spacing units * 2 ^ 53 := Nat.mul_le_mul_left _ hk53
      rw [Nat.mul_succ, ← hk] at hmul
      omega
    unfold spacing
    rw [Nat.le_antisymm hle (bitLength_mono hlow)]

/-- The step of a double is that of the numbers below it down to its neighbour, except at a power of two. -/
theorem spacing_below (hdvd : spacing units ∣ units)
    (hwide : spacing units = 1 ∨ units ≠ 2 ^ (bitLength units - 1)) (hhigh : v < units)
    (hlow : units ≤ v + spacing units) : spacing v = spacing units := by
  have hmono := spacing_mono (Nat.le_of_lt hhigh)
  by_cases hone : spacing units = 1
  · have hpos := spacing_pos v
    omega
  · have hlarge : 53 < bitLength units := by
      by_contra hsmall
      exact hone (spacing_eq_one (Nat.le_of_not_lt hsmall))
    have hpow := two_pow_eq (Nat.le_of_lt hlarge) (show 1 ≤ 53 by decide)
    have hunits : 2 ^ (bitLength units - 1) < units :=
      Nat.lt_of_le_of_ne (two_pow_le (Nat.zero_lt_of_lt hhigh)) (hwide.resolve_left hone).symm
    -- the double lies a step above the power of two at least
    obtain ⟨k, hk⟩ := hdvd
    have hstep : 2 ^ (bitLength units - 1) + spacing units ≤ units := by
      rw [hpow] at hunits ⊢
      have hk52 : 2 ^ (53 - 1) < k := by
        by_contra hge
        have hmul := Nat.mul_le_mul_left (spacing units) (Nat.not_lt.1 hge)
        omega
      have hmul := Nat.mul_le_mul_left (spacing units) hk52
      rw [Nat.mul_succ] at hmul
      omega
    have hbits : bitLength units - 1 < bitLength v := lt_bitLength (by omega)
    have hle := bitLength_mono (Nat.le_of_lt hhigh)
    unfold spacing
    rw [show bitLength v = bitLength units by omega]

/-- Below a power of two the step is half as wide. -/
theorem spacing_below_narrow (hone : spacing units ≠ 1) (hnarrow : units = 2 ^ (bitLength units - 1))
    (hhigh : v < units) (hlow : units ≤ v + spacing units) : spacing units = 2 * spacing v := by
  have hlarge : 53 < bitLength units := by
    by_contra hsmall
    exact hone (spacing_eq_one (Nat.le_of_not_lt hsmall))
  have hle : bitLength v ≤ bitLength units - 1 := bitLength_le (Nat.lt_of_lt_of_eq hhigh hnarrow)
  have hbits : bitLength units - 2 < bitLength v := by
    apply lt_bitLength
    have hhalf := two_pow_eq (Nat.le_of_lt hlarge) (show 2 ≤ 53 by decide)
    have hpow := two_pow_eq (Nat.le_of_lt hlarge) (show 1 ≤ 53 by decide)
    omega
  have heq : bitLength units - 53 = (bitLength v - 53) + 1 := by omega
  unfold spacing
  rw [heq, Nat.pow_eq, Nat.pow_succ, Nat.mul_comm]
  rfl

end

/-! ### Basins -/

namespace Basin

/-- A number, in quarters of a unit, lies in a basin: between its ends, or at one of them if they belong to it. -/
structure Contains (b : Basin) (x : ℚ) : Prop where
  low_le : b.low ≤ x
  le_high : x ≤ b.high
  closed : x = b.low ∨ x = b.high → b.closed = true

theorem contains_div_iff {b : Basin} {num den : Nat} (hden : 0 < den) :
    b.Contains (num / den) ↔ b.low * den ≤ num ∧ num ≤ b.high * den ∧
      (num = b.low * den ∨ num = b.high * den → b.closed = true) := by
  have hpos : (0 : ℚ) < den := by exact_mod_cast hden
  have hlow : (b.low : ℚ) ≤ num / den ↔ b.low * den ≤ num := by
    rw [le_div_iff₀ hpos]
    norm_cast
  have hhigh : (num : ℚ) / den ≤ b.high ↔ num ≤ b.high * den := by
    rw [div_le_iff₀ hpos]
    norm_cast
  have heq (n : Nat) : (num : ℚ) / den = n ↔ num = n * den := by
    rw [div_eq_iff (ne_of_gt hpos)]
    norm_cast
  rw [← hlow, ← hhigh, ← heq, ← heq]
  exact ⟨fun h => ⟨h.low_le, h.le_high, h.closed⟩, fun h => ⟨h.1, h.2.1, h.2.2⟩⟩

end Basin

/-- What is at most half a step away from a multiple of the step, and half only from an even one, is rounded
to it. -/
theorem nearestUnits_eq {num den units k step : Nat} (hunits : units = k * step)
    (hspacing : spacing (num / den) = step) (hden : 0 < den) (hlow : 2 * (units * den) ≤ 2 * num + step * den)
    (hhigh : 2 * num ≤ 2 * (units * den) + step * den)
    (htie : 2 * (units * den) = 2 * num + step * den ∨ 2 * num = 2 * (units * den) + step * den → k % 2 = 0) :
    nearestUnits num den = units := by
  have hstep : 0 < step := hspacing ▸ spacing_pos _
  have hassoc : units * den = k * (den * step) := by rw [hunits, Nat.mul_assoc, Nat.mul_comm step]
  unfold nearestUnits
  dsimp only
  rw [Nat.mul_comm step den, hassoc] at hlow hhigh htie
  rw [hspacing, roundHalfEven_eq hlow hhigh (Nat.mul_pos hden hstep) htie, ← hunits]

/-- How far a basin reaches downwards from its centre. -/
def lowerReach (units : Nat) : Nat :=
  let s := spacing units
  if s ≠ 1 ∧ units = 2 ^ (bitLength units - 1) then s else 2 * s

theorem lowerReach_le {units : Nat} (hgrid : OnGrid units) (hunits : 0 < units) :
    lowerReach units ≤ 4 * units := by
  have hle := Nat.le_of_dvd hunits hgrid.1
  unfold lowerReach
  dsimp only
  split <;> omega

theorem low_basin {units : Nat} (hgrid : OnGrid units) (hunits : 0 < units) :
    (basin units).low + lowerReach units = 4 * units :=
  Nat.sub_add_cancel (lowerReach_le hgrid hunits)

theorem low_basin_mul {units : Nat} (hgrid : OnGrid units) (hunits : 0 < units) (n : Nat) :
    (basin units).low * n + lowerReach units * n = 4 * (units * n) := by
  rw [← Nat.add_mul, low_basin hgrid hunits, Nat.mul_assoc]

theorem high_basin_mul (units n : Nat) :
    (basin units).high * n = 4 * (units * n) + 2 * (spacing units * n) := by
  show (4 * units + 2 * spacing units) * n = _
  rw [Nat.add_mul, Nat.mul_assoc, Nat.mul_assoc]

/-- What it means to lie in the basin of a double, in whole numbers. -/
theorem bounds_of_contains {units num den : Nat} (hgrid : OnGrid units) (hunits : 0 < units) (hden : 0 < den)
    (h : (basin units).Contains ((4 * num : Nat) / den)) :
    4 * (units * den) ≤ 4 * num + lowerReach units * den ∧
      4 * num ≤ 4 * (units * den) + 2 * (spacing units * den) ∧
      (4 * (units * den) = 4 * num + lowerReach units * den ∨
        4 * num = 4 * (units * den) + 2 * (spacing units * den) → units / spacing units % 2 = 0) := by
  rw [Basin.contains_div_iff hden] at h
  have hlow := low_basin_mul hgrid hunits den
  have hclosed : (basin units).closed = true ↔ units / spacing units % 2 = 0 := decide_eq_true_iff
  rw [high_basin_mul] at h
  obtain ⟨hlow', hhigh', hends⟩ := h
  exact ⟨by omega, hhigh', fun heq => hclosed.1 (hends (by omega))⟩

/-- The nearest double to what lies in a basin is the one in its centre. -/
theorem nearestUnits_of_contains {units num den : Nat} (hgrid : OnGrid units) (hunits : 0 < units)
    (hden : 0 < den) (h : (basin units).Contains ((4 * num : Nat) / den)) : nearestUnits num den = units := by
  obtain ⟨hlow, hhigh, htie⟩ := bounds_of_contains hgrid hunits hden h
  have hpos : 0 < spacing units * den := Nat.mul_pos (spacing_pos units) hden
  have hnum : num < (num / den + 1) * den := (Nat.div_lt_iff_lt_mul hden).1 (Nat.lt_succ_self _)
  obtain ⟨k, hk⟩ := hgrid.1
  rw [Nat.mul_comm] at hk
  have hcount : units / spacing units = k := Nat.div_eq_of_eq_mul_left (spacing_pos units) hk
  rw [hcount] at htie
  by_cases habove : units * den ≤ num
  · -- above the centre the step is that of the centre
    have hv : units ≤ num / den := (Nat.le_div_iff_mul_le hden).2 habove
    have hv' : num / den < units + spacing units := by
      rw [Nat.div_lt_iff_lt_mul hden, Nat.add_mul]
      omega
    exact nearestUnits_eq hk (spacing_above hgrid.1 hv hv') hden (by omega) (by omega) fun _ => htie (by omega)
  · -- below it the step may be half as wide, if the centre is a power of two
    have hv : num / den < units := (Nat.div_lt_iff_lt_mul hden).2 (Nat.lt_of_not_le habove)
    have hv' (hreach : lowerReach units * den ≤ 2 * (spacing units * den)) : units ≤ num / den + spacing units := by
      by_contra hfar
      have hmul : (num / den + 1 + spacing units) * den ≤ units * den := Nat.mul_le_mul_right den (by omega)
      rw [Nat.add_mul] at hmul
      omega
    by_cases hnarrow : spacing units ≠ 1 ∧ units = 2 ^ (bitLength units - 1)
    · -- the step below is half the step, so the neighbour above the middle is even
      have hreach : lowerReach units = spacing units := if_pos hnarrow
      rw [hreach] at hlow htie hv'
      have hhalf := spacing_below_narrow hnarrow.1 hnarrow.2 hv (hv' (by omega))
      have hunits' : units = 2 * k * spacing (num / den) := by
        rw [Nat.mul_comm 2, Nat.mul_assoc, ← hhalf]
        exact hk
      have hden' : spacing units * den = 2 * (spacing (num / den) * den) := by rw [hhalf, Nat.mul_assoc]
      exact nearestUnits_eq hunits' rfl hden (by omega) (by omega) fun _ => Nat.mul_mod_right 2 k
    · have hreach : lowerReach units = 2 * spacing units := if_neg hnarrow
      rw [hreach, Nat.mul_assoc] at hlow htie hv'
      have hwide : spacing units = 1 ∨ units ≠ 2 ^ (bitLength units - 1) := by
        rw [not_and_or, not_not] at hnarrow
        exact hnarrow
      have hstep := spacing_below hgrid.1 hwide hv (hv' (Nat.le_refl _))
      exact nearestUnits_eq hk hstep hden (by omega) (by omega) fun _ => htie (by omega)

/-! ### Decimals in a basin -/

/-- The number that a decimal is. -/
def Decimal.value (d : Decimal) : ℚ :=
  d.significand * 10 ^ d.exponent

theorem Decimal.value_withoutTrailingZeros (fuel : Nat) (d : Decimal) :
    (d.withoutTrailingZeros fuel).value = d.value := by
  induction fuel generalizing d with
  | zero => rfl
  | succ fuel ih =>
    unfold withoutTrailingZeros
    split
    · rename_i hzero
      rw [ih]
      have hten : d.significand = d.significand / 10 * 10 := by omega
      have hcast : (d.significand : ℚ) = (d.significand / 10 : Nat) * 10 := by exact_mod_cast hten
      unfold value
      dsimp only
      rw [hcast, zpow_add_one₀ (by norm_num), mul_assoc, mul_comm (10 : ℚ)]
    · rfl

theorem powerOfTen_pos (exponent : Int) : 0 < (powerOfTen exponent).1 ∧ 0 < (powerOfTen exponent).2 := by
  unfold powerOfTen
  split
  · exact ⟨Nat.pow_pos (by decide), Nat.one_pos⟩
  · exact ⟨Nat.one_pos, Nat.pow_pos (by decide)⟩

theorem powerOfTen_div (exponent : Int) :
    ((powerOfTen exponent).1 : ℚ) / (powerOfTen exponent).2 = 10 ^ exponent := by
  unfold powerOfTen
  split
  · rename_i hpos
    obtain ⟨n, rfl⟩ := Int.eq_ofNat_of_zero_le hpos
    simp
  · rename_i hneg
    obtain ⟨n, hn⟩ := Int.eq_ofNat_of_zero_le (show 0 ≤ -exponent by omega)
    obtain rfl : exponent = -(n : Int) := by omega
    simp

/-- The quarters of a unit in so many powers of ten. -/
theorem quarters_eq (significand : Nat) (exponent : Int) :
    4 * Double.unitsPerOne * (⟨significand, exponent⟩ : Decimal).value =
      (((powerOfTen exponent).1 * (4 * Double.unitsPerOne) * significand : Nat) : ℚ) / (powerOfTen exponent).2 := by
  unfold Decimal.value
  rw [← powerOfTen_div]
  push_cast
  ring

theorem unitsPerOne_pos : 0 < Double.unitsPerOne := by
  unfold Double.unitsPerOne
  generalize 1074 = n
  exact Nat.two_pow_pos n

namespace Basin

variable {b : Basin} {exponent : Int}

section

variable {α : Type} {upper lower near : Prop} [Decidable upper] [Decidable lower] [Decidable near] {a a' : α}

/-- One of two candidates is chosen only if it fits. -/
theorem fits_of_choice {chosen : α}
    (h : (if upper ∧ (¬lower ∨ near) then some a else if lower then some a' else none) = some chosen) :
    upper ∧ chosen = a ∨ lower ∧ chosen = a' := by
  split at h
  · rename_i hupper
    exact .inl ⟨hupper.1, (Option.some.inj h).symm⟩
  · split at h
    · rename_i hlower
      exact .inr ⟨hlower, (Option.some.inj h).symm⟩
    · cases h

theorem exists_choice (h : upper ∨ lower) :
    ∃ chosen, (if upper ∧ (¬lower ∨ near) then some a else if lower then some a' else none) = some chosen := by
  by_cases hlower : lower
  · rw [if_pos hlower]
    split
    · exact ⟨a, rfl⟩
    · exact ⟨a', rfl⟩
  · exact ⟨a, if_pos ⟨h.resolve_right hlower, .inl hlower⟩⟩

end

/-- The decimal that is chosen lies in the basin. -/
theorem contains_of_decimalAt? (hlow : b.low < b.centre) (hhigh : b.centre < b.high) {d : Decimal}
    (h : b.decimalAt? exponent = some d) : b.Contains (4 * Double.unitsPerOne * d.value) := by
  obtain ⟨hp, hq⟩ := powerOfTen_pos exponent
  have hquarters (significand : Nat) := quarters_eq significand exponent
  unfold decimalAt? at h
  generalize powerOfTen exponent = power at h hp hq hquarters
  obtain ⟨p, q⟩ := power
  dsimp only at h hp hq hquarters
  have hstep : 0 < p * (4 * Double.unitsPerOne) := Nat.mul_pos hp (Nat.mul_pos (by decide) unitsPerOne_pos)
  generalize p * (4 * Double.unitsPerOne) = step at h hstep hquarters
  have hdown : step * (b.centre * q / step) ≤ b.centre * q := Nat.mul_div_le _ _
  have hup : b.centre * q < step * (b.centre * q / step + 1) := Nat.lt_mul_div_succ _ hstep
  have hlowq : b.low * q < b.centre * q := Nat.mul_lt_mul_of_pos_right hlow hq
  have hhighq : b.centre * q < b.high * q := Nat.mul_lt_mul_of_pos_right hhigh hq
  -- of the neighbours of the centre the upper one is above the low end and the lower one below the high end
  rcases fits_of_choice h with ⟨hfits, rfl⟩ | ⟨hfits, rfl⟩
  · rw [hquarters, contains_div_iff hq]
    split at hfits
    · rename_i hclosed
      exact ⟨by omega, hfits, fun _ => hclosed⟩
    · exact ⟨by omega, by omega, by omega⟩
  · rw [hquarters, contains_div_iff hq]
    split at hfits
    · rename_i hclosed
      exact ⟨hfits, by omega, fun _ => hclosed⟩
    · exact ⟨by omega, by omega, by omega⟩

/-- There is a decimal in the basin if its last digit is finer than the basin is wide. -/
theorem exists_decimalAt? (hfine : b.low * (powerOfTen exponent).2 +
    (powerOfTen exponent).1 * (4 * Double.unitsPerOne) < b.high * (powerOfTen exponent).2) :
    ∃ d, b.decimalAt? exponent = some d := by
  unfold decimalAt?
  generalize powerOfTen exponent = power at hfine
  obtain ⟨p, q⟩ := power
  dsimp only at hfine ⊢
  generalize p * (4 * Double.unitsPerOne) = step at hfine
  generalize b.centre * q / step = lower
  have hup : step * (lower + 1) = step * lower + step := Nat.mul_succ _ _
  -- otherwise the basin would lie between two neighbours
  apply exists_choice
  cases b.closed with
  | false =>
    simp only [Bool.false_eq_true, if_false]
    omega
  | true =>
    simp only [if_true]
    omega

end Basin

theorem low_lt_centre {units : Nat} (hgrid : OnGrid units) (hunits : 0 < units) :
    (basin units).low < (basin units).centre := by
  have hlow := low_basin hgrid hunits
  have hpos := spacing_pos units
  have hreach : 0 < lowerReach units := by
    unfold lowerReach
    dsimp only
    split <;> omega
  show (basin units).low < 4 * units
  omega

theorem centre_lt_high (units : Nat) : (basin units).centre < (basin units).high :=
  Nat.lt_add_of_pos_right (Nat.mul_pos (by decide) (spacing_pos units))

/-! ### Seventeen digits -/

theorem lt_ten_pow_digitCount (n : Nat) : n < 10 ^ digitCount n :=
  (Nat.length_toDigits_le_iff (by decide) Nat.length_toDigits_pos).1 (Nat.le_refl _)

theorem ten_pow_le {n : Nat} (h : 0 < n) : 10 ^ (digitCount n - 1) ≤ n := by
  by_cases hone : digitCount n - 1 = 0
  · rw [hone]
    exact h
  · have hiff : digitCount n ≤ digitCount n - 1 ↔ n < 10 ^ (digitCount n - 1) :=
      Nat.length_toDigits_le_iff (by decide) (Nat.pos_of_ne_zero hone)
    omega

/-- The magnitude is a power of ten that is not above. -/
theorem decimalMagnitude_le {num den : Nat} (hnum : 0 < num) (hden : 0 < den) :
    (10 : ℚ) ^ decimalMagnitude num den * den ≤ num := by
  unfold decimalMagnitude
  split
  · -- the quotient has as many digits as the magnitude says
    rename_i hle
    have hpos : 0 < num / den := Nat.div_pos hle hden
    have hpow : 10 ^ (digitCount (num / den) - 1) * den ≤ num :=
      Nat.le_trans (Nat.mul_le_mul_right den (ten_pow_le hpos)) (Nat.div_mul_le_self num den)
    have hcount : 0 < digitCount (num / den) := Nat.length_toDigits_pos
    rw [show (digitCount (num / den) : ℤ) - 1 = (digitCount (num / den) - 1 : Nat) by omega, zpow_natCast]
    exact_mod_cast hpow
  · -- the quotient upside down, rounded up, is at most the power
    rename_i hlt
    have hpow : (den + num - 1) / num ≤ 10 ^ digitCount ((den + num - 1) / num - 1) := by
      have hless := lt_ten_pow_digitCount ((den + num - 1) / num - 1)
      omega
    have hup : den ≤ num * ((den + num - 1) / num) := by
      have hmod := Nat.div_add_mod (den + num - 1) num
      have hrest := Nat.mod_lt (den + num - 1) hnum
      omega
    have hmul : den ≤ num * 10 ^ digitCount ((den + num - 1) / num - 1) :=
      Nat.le_trans hup (Nat.mul_le_mul_left num hpow)
    have hten : (0 : ℚ) < 10 ^ digitCount ((den + num - 1) / num - 1) := by positivity
    rw [zpow_neg, zpow_natCast, inv_mul_le_iff₀ hten, mul_comm]
    exact_mod_cast hmul

/-- So many places behind the first digit a unit of the last one is that much smaller. -/
theorem powerOfTen_mul_le {magnitude : Int} {num den : Nat} (h : (10 : ℚ) ^ magnitude * den ≤ num) (places : Nat) :
    (powerOfTen (magnitude - places)).1 * den * 10 ^ places ≤ num * (powerOfTen (magnitude - places)).2 := by
  have hq : (0 : ℚ) < (powerOfTen (magnitude - places)).2 := by
    exact_mod_cast (powerOfTen_pos (magnitude - places)).2
  have hratio := powerOfTen_div (magnitude - places)
  rw [zpow_sub₀ (by norm_num), div_eq_div_iff (ne_of_gt hq) (by positivity), zpow_natCast] at hratio
  have hcast : ((powerOfTen (magnitude - places)).1 : ℚ) * den * 10 ^ places ≤
      num * (powerOfTen (magnitude - places)).2 := by
    calc ((powerOfTen (magnitude - places)).1 : ℚ) * den * 10 ^ places
        = (powerOfTen (magnitude - places)).1 * 10 ^ places * den := by ring
      _ = 10 ^ magnitude * den * (powerOfTen (magnitude - places)).2 := by rw [hratio]; ring
      _ ≤ num * (powerOfTen (magnitude - places)).2 := by gcongr
  exact_mod_cast hcast

/-- The seventeenth digit is finer than the basin is wide. -/
theorem exists_decimalAt?_seventeen {units : Nat} (hgrid : OnGrid units) (hunits : 0 < units) :
    ∃ d, (basin units).decimalAt? (decimalMagnitude units Double.unitsPerOne - (16 : Nat)) = some d := by
  have hstep := powerOfTen_mul_le (decimalMagnitude_le hunits unitsPerOne_pos) 16
  apply Basin.exists_decimalAt?
  have hq := (powerOfTen_pos (decimalMagnitude units Double.unitsPerOne - (16 : Nat))).2
  generalize powerOfTen (decimalMagnitude units Double.unitsPerOne - (16 : Nat)) = power at hq hstep ⊢
  obtain ⟨p, q⟩ := power
  dsimp only at hq hstep ⊢
  have hlow := low_basin_mul hgrid hunits q
  have hfour : p * (4 * Double.unitsPerOne) = 4 * (p * Double.unitsPerOne) := Nat.mul_left_comm _ _ _
  rw [high_basin_mul, hfour]
  generalize p * Double.unitsPerOne = step at hstep
  -- a narrow basin is three quarters as wide, but there its double is a full power of two
  by_cases hnarrow : spacing units ≠ 1 ∧ units = 2 ^ (bitLength units - 1)
  · have hreach : lowerReach units = spacing units := if_pos hnarrow
    have hlarge : 53 ≤ bitLength units := by
      by_contra hsmall
      exact hnarrow.1 (spacing_eq_one (by omega))
    have hpower : units * q = 2 ^ 52 * (spacing units * q) := by
      have hunits' := hnarrow.2.trans (two_pow_eq hlarge (show 1 ≤ 53 by decide))
      rw [← Nat.mul_assoc]
      exact congrArg (· * q) hunits'
    have hpos : 0 < spacing units * q := Nat.mul_pos (spacing_pos units) hq
    rw [hreach] at hlow
    omega
  · have hreach : lowerReach units = 2 * spacing units := if_neg hnarrow
    have hwide : units * q < 2 ^ 53 * spacing units * q := Nat.mul_lt_mul_of_pos_right (lt_mul_spacing units) hq
    rw [hreach, Nat.mul_assoc] at hlow
    rw [Nat.mul_assoc] at hwide
    omega

/-- The shortest decimal of a double lies in its basin. -/
theorem contains_shortest {units : Nat} (hgrid : OnGrid units) (hunits : 0 < units) :
    (basin units).Contains (4 * Double.unitsPerOne * (shortest units).value) := by
  -- the seventeenth attempt succeeds, if none before it does
  have hfound : ((List.range 17).findSome? fun (n : Nat) =>
      (basin units).decimalAt? (decimalMagnitude units Double.unitsPerOne - n)).isSome = true := by
    obtain ⟨d, hd⟩ := exists_decimalAt?_seventeen hgrid hunits
    exact List.findSome?_isSome_iff.2 ⟨16, List.mem_range.2 (by decide), by rw [hd]; rfl⟩
  obtain ⟨d, hd⟩ := Option.isSome_iff_exists.1 hfound
  have hshortest : shortest units = d.withoutTrailingZeros 20 := by
    unfold shortest
    dsimp only
    rw [hd]
    rfl
  obtain ⟨n, -, hn⟩ := List.exists_of_findSome?_eq_some hd
  rw [hshortest, Decimal.value_withoutTrailingZeros]
  exact Basin.contains_of_decimalAt? (low_lt_centre hgrid hunits) (centre_lt_high units) hn

end SequenceNotation.Number
