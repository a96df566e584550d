/-!
# Rounding of quotients

Rounding `num / den` to a whole number, and to the grid of 53-bit numbers.  Everything is exact
arithmetic on naturals; a quotient with denominator zero is never asked for.
-/

namespace SequenceNotation.Number

/-- The whole number nearest to `num / den`; a half goes to the even neighbour. -/
def roundHalfEven (num den : Nat) : Nat :=
  let q := num / den
  let r := num % den
  if 2 * r < den then q
  else if den < 2 * r then q + 1
  else if q % 2 = 0 then q
  else q + 1

/-- The whole number nearest to `num / den`; a half goes up. -/
def roundHalfUp (num den : Nat) : Nat :=
  (2 * num + den) / (2 * den)

/-- How many binary digits `n` has; zero has none. -/
def bitLength (n : Nat) : Nat :=
  if n = 0 then 0 else n.log2 + 1

/-- How many decimal digits `n` has; zero has one. -/
def digitCount (n : Nat) : Nat :=
  (Nat.toDigits 10 n).length

/-- The distance between neighbouring 53-bit numbers at `n`. -/
def spacing (n : Nat) : Nat :=
  Nat.pow 2 (bitLength n - 53)

/-- The 53-bit number nearest to `num / den`, ties to the even significand. -/
def nearestUnits (num den : Nat) : Nat :=
  let s := spacing (num / den)
  roundHalfEven num (den * s) * s

theorem roundHalfEven_le_succ (num den : Nat) : roundHalfEven num den ≤ num / den + 1 := by
  unfold roundHalfEven
  grind

theorem lt_two_pow_bitLength (n : Nat) : n < Nat.pow 2 (bitLength n) := by
  unfold bitLength
  split
  · next hn =>
    subst hn
    exact Nat.one_pos
  · exact Nat.lt_log2_self

theorem bitLength_le {n k : Nat} (h : n < Nat.pow 2 k) : bitLength n ≤ k := by
  unfold bitLength
  split
  · omega
  · next hn => exact (Nat.log2_lt hn).2 h

/-- A significand of at most `2 ^ 53` times a power of two lies on the grid at its own size. -/
theorem spacing_dvd_mul {m p : Nat} (h : m ≤ Nat.pow 2 53) :
    spacing (m * Nat.pow 2 p) ∣ m * Nat.pow 2 p := by
  rcases Nat.lt_or_eq_of_le h with hlt | rfl
  · have hb : bitLength (m * Nat.pow 2 p) ≤ 53 + p := by
      apply bitLength_le
      rw [Nat.pow_eq, Nat.pow_eq, Nat.pow_add]
      exact Nat.mul_lt_mul_of_pos_right hlt (Nat.two_pow_pos p)
    exact Nat.dvd_trans (Nat.pow_dvd_pow 2 (by omega)) (Nat.dvd_mul_left _ _)
  · rw [Nat.pow_eq, Nat.pow_eq, ← Nat.pow_add]
    refine Nat.pow_dvd_pow 2 ?_
    have hb : bitLength (2 ^ (53 + p)) ≤ 53 + p + 1 :=
      bitLength_le (Nat.pow_lt_pow_right (by decide) (by omega))
    omega

theorem spacing_nearestUnits_dvd (num den : Nat) :
    spacing (nearestUnits num den) ∣ nearestUnits num den := by
  have h : roundHalfEven num (den * spacing (num / den)) ≤ Nat.pow 2 53 := by
    refine Nat.le_trans (roundHalfEven_le_succ _ _) ?_
    rw [← Nat.div_div_eq_div_mul]
    refine Nat.div_lt_of_lt_mul ?_
    unfold spacing
    rw [Nat.pow_eq, Nat.pow_eq, ← Nat.pow_add]
    exact Nat.lt_of_lt_of_le (lt_two_pow_bitLength _)
      (Nat.pow_le_pow_right (by decide) (by omega))
  exact spacing_dvd_mul h

end SequenceNotation.Number
