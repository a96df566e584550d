import SequenceNotation.Proofs.Number.RoundTrip
import SequenceNotation.Proofs.Number.Width

/-!
# Whole doubles

All integers up to `2 ^ 53` in size are doubles.  Sums and products of doubles without a fraction that stay in this
range are exact, so that arithmetic on them is that of the integers, signs of zeros aside.
-/

namespace SequenceNotation.Number

/-- A count of units on the grid is nearest to itself. -/
theorem nearestUnits_mul {units den : Nat} (hdvd : spacing units ∣ units) (hden : 0 < den) :
    nearestUnits (units * den) den = units := by
  obtain ⟨k, hk⟩ := hdvd
  have hspacing : spacing (units * den / den) = spacing units := by rw [Nat.mul_div_cancel _ hden]
  have hstep : 0 < spacing units * den := Nat.mul_pos (spacing_pos units) hden
  exact nearestUnits_eq (hk.trans (Nat.mul_comm _ _)) hspacing hden (by omega) (by omega) fun htie => by omega

namespace Double

/-- The integer that a double is, if it has no fraction. -/
def integer? : Double → Option Int
  | .finite negative units _ =>
    if units % unitsPerOne = 0 then some (signedUnits negative (units / unitsPerOne)) else none
  | _ => none

/-- The greatest size up to which all integers are doubles. -/
def exactLimit : Nat := Nat.pow 2 53

theorem integer?_finite (negative : Bool) (n : Nat) (h : OnGrid (n * unitsPerOne)) :
    (finite negative (n * unitsPerOne) h).integer? = some (signedUnits negative n) := by
  rw [integer?, if_pos (Nat.mul_mod_left n unitsPerOne), Nat.mul_div_cancel n unitsPerOne_pos]

theorem signedUnits_mul (negative : Bool) (n k : Nat) :
    signedUnits negative (n * k) = signedUnits negative n * k := by
  cases negative <;> simp [signedUnits]

theorem natAbs_signedUnits (negative : Bool) (n : Nat) : (signedUnits negative n).natAbs = n := by
  cases negative <;> simp [signedUnits]

theorem signedUnits_zero (negative : Bool) : signedUnits negative 0 = 0 := by
  cases negative <;> rfl

theorem signedUnits_natAbs (n : Int) : signedUnits (n < 0) n.natAbs = n := by
  unfold signedUnits
  by_cases h : n < 0
  · rw [decide_eq_true h, if_pos rfl]
    omega
  · rw [decide_eq_false h, if_neg Bool.false_ne_true]
    omega

theorem exists_finite_eq (negative : Bool) {units units' : Nat} (h : OnGrid units) (heq : units = units') :
    ∃ hgrid, finite negative units h = finite negative units' hgrid := by
  subst heq
  exact ⟨h, rfl⟩

/-- A double without a fraction has the units of its integer. -/
theorem exists_finite_of_integer? {x : Double} {n : Int} (h : x.integer? = some n) :
    ∃ negative k hgrid, x = finite negative (k * unitsPerOne) hgrid ∧ n = signedUnits negative k := by
  cases x with
  | nan => cases h
  | infinite negative => cases h
  | finite negative units hgrid =>
    rw [integer?] at h
    split at h
    · rename_i hwhole
      obtain ⟨hgrid', hx⟩ := exists_finite_eq negative hgrid
        (Nat.div_mul_cancel (Nat.dvd_of_mod_eq_zero hwhole)).symm
      exact ⟨negative, units / unitsPerOne, hgrid', hx, (Option.some.inj h).symm⟩
    · cases h

/-! ### Rounding -/

/-- Integers in the exact range are rounded to themselves. -/
theorem exists_nearest_whole (negative : Bool) {n den : Nat} (hn : n ≤ exactLimit) (hden : 0 < den) :
    ∃ hgrid, nearest negative (n * unitsPerOne * den) den = finite negative (n * unitsPerOne) hgrid := by
  have hdvd : spacing (n * unitsPerOne) ∣ n * unitsPerOne := by
    unfold unitsPerOne
    generalize 1074 = a
    exact spacing_dvd_mul hn
  have hlimit : n * unitsPerOne < unitsLimit := by
    unfold unitsPerOne unitsLimit
    generalize ha : 1074 = a
    generalize hb : 2098 = b
    have hpow : 2 ^ (53 + a) < 2 ^ b := Nat.pow_lt_pow_right (by decide) (by omega)
    rw [Nat.pow_add] at hpow
    exact Nat.lt_of_le_of_lt (Nat.mul_le_mul_right _ hn) hpow
  exact exists_nearest (nearestUnits_mul hdvd hden) hlimit

theorem integer?_nearest (negative : Bool) {n den : Nat} (hn : n ≤ exactLimit) (hden : 0 < den) :
    (nearest negative (n * unitsPerOne * den) den).integer? = some (signedUnits negative n) := by
  obtain ⟨hgrid, heq⟩ := exists_nearest_whole negative hn hden
  rw [heq, integer?_finite]

theorem integer?_nearest_zero (negative : Bool) {den : Nat} (hden : 0 < den) :
    (nearest negative 0 den).integer? = some 0 := by
  have hown := integer?_nearest negative (Nat.zero_le exactLimit) hden
  rwa [Nat.zero_mul, Nat.zero_mul, signedUnits_zero] at hown

theorem integer?_ofWhole (negative : Bool) {n : Nat} (hn : n ≤ exactLimit) :
    (ofWhole negative n).integer? = some (signedUnits negative n) := by
  have hown := integer?_nearest negative hn Nat.one_pos
  rwa [Nat.mul_one] at hown

theorem exists_ofNat {n : Nat} (hn : n ≤ exactLimit) : ∃ hgrid, ofNat n = finite false (n * unitsPerOne) hgrid := by
  have hown := exists_nearest_whole false hn Nat.one_pos
  rwa [Nat.mul_one] at hown

theorem integer?_ofNat {n : Nat} (hn : n ≤ exactLimit) : (ofNat n).integer? = some n :=
  integer?_ofWhole false hn

theorem integer?_literal {n : Nat} (hn : n ≤ exactLimit) : (OfNat.ofNat n : Double).integer? = some n :=
  integer?_ofNat hn

/-- Rounding to a neighbour no more than doubles a number. -/
theorem nearestUnits_le (num : Nat) : nearestUnits num 1 ≤ 2 * num := by
  unfold nearestUnits
  dsimp only
  rw [Nat.div_one, Nat.one_mul]
  rcases Nat.eq_zero_or_pos num with rfl | hpos
  · simp [roundHalfEven]
  · have hspacing : spacing num ≤ num :=
      Nat.le_trans (Nat.pow_le_pow_right (by decide) (by omega)) (two_pow_le hpos)
    have hround := Nat.mul_le_mul_right (spacing num) (roundHalfEven_le_succ num (spacing num))
    have hdiv := Nat.div_mul_le_self num (spacing num)
    rw [Nat.succ_mul] at hround
    omega

/-- Counts of 64 bits have finite doubles. -/
theorem isFinite_ofNat {n : Nat} (hn : n < 2 ^ 64) : (ofNat n).isFinite = true := by
  have hlimit : nearestUnits (n * unitsPerOne) 1 < unitsLimit := by
    refine Nat.lt_of_le_of_lt (nearestUnits_le _) ?_
    unfold unitsPerOne unitsLimit
    generalize ha : 1074 = a
    generalize hb : 2098 = b
    have hpow : 2 ^ (65 + a) < 2 ^ b := Nat.pow_lt_pow_right (by decide) (by omega)
    have hmul : n * 2 ^ a ≤ 2 ^ 64 * 2 ^ a := Nat.mul_le_mul_right _ (Nat.le_of_lt hn)
    rw [Nat.pow_add] at hpow
    show 2 * (n * 2 ^ a) < 2 ^ b
    omega
  unfold ofNat ofWhole nearest
  rw [dif_pos hlimit]
  rfl

/-- An integer in decimal is read exactly. -/
theorem integer?_nearestDecimal (negative : Bool) {n : Nat} (hn : n ≤ exactLimit) :
    (nearestDecimal negative n 0).integer? = some (signedUnits negative n) := by
  have hcount : digitCount n ≤ 16 := length_decimalDigits_le (by decide) (Nat.lt_of_le_of_lt hn (by decide))
  unfold nearestDecimal
  dsimp only
  split
  · rename_i hzero
    obtain rfl : n = 0 := hzero.resolve_right (by omega)
    rw [signedUnits_zero, integer?_nearest_zero negative Nat.one_pos]
  · rw [if_neg (by omega), if_pos (Int.le_refl 0), Int.toNat_zero]
    rw [show Nat.pow 10 0 = 1 from rfl, Nat.mul_one]
    exact integer?_ofWhole negative hn

/-! ### Arithmetic -/

section Finite

variable {s t : Bool} {a b : Nat} {hgrid : OnGrid a} {hgrid' : OnGrid b}

theorem mul_finite : finite s a hgrid * finite t b hgrid' = nearest (s != t) (a * b) unitsPerOne := by
  rw [show finite s a hgrid * finite t b hgrid' = mul (finite s a hgrid) (finite t b hgrid') from rfl, mul]

theorem round_finite : (finite s a hgrid).round = ofWhole s (roundHalfUp a unitsPerOne) :=
  rfl

end Finite

theorem integer?_neg {x : Double} {n : Int} (h : x.integer? = some n) : (-x).integer? = some (-n) := by
  obtain ⟨negative, k, hgrid, rfl, rfl⟩ := exists_finite_of_integer? h
  refine (integer?_finite (!negative) k hgrid).trans (congrArg some ?_)
  cases negative
  · rfl
  · exact (Int.neg_neg _).symm

theorem integer?_abs {x : Double} {n : Int} (h : x.integer? = some n) : x.abs.integer? = some (n.natAbs : Int) := by
  obtain ⟨negative, k, hgrid, rfl, rfl⟩ := exists_finite_of_integer? h
  rw [natAbs_signedUnits]
  exact integer?_finite false k hgrid

/-- A sum in the exact range is exact. -/
theorem integer?_add {x y : Double} {m n : Int} (hx : x.integer? = some m) (hy : y.integer? = some n)
    (hsum : (m + n).natAbs ≤ exactLimit) : (x + y).integer? = some (m + n) := by
  obtain ⟨s, a, hgrid, rfl, rfl⟩ := exists_finite_of_integer? hx
  obtain ⟨t, b, hgrid', rfl, rfl⟩ := exists_finite_of_integer? hy
  have hunits : signedUnits s (a * unitsPerOne) + signedUnits t (b * unitsPerOne) =
      (signedUnits s a + signedUnits t b) * unitsPerOne := by
    rw [signedUnits_mul, signedUnits_mul, Int.add_mul]
  have hone : (0 : Int) < unitsPerOne := by exact_mod_cast unitsPerOne_pos
  show (if _ then nearest (s && t) 0 1 else nearest _ _ 1).integer? = _
  rw [hunits]
  generalize signedUnits s a + signedUnits t b = sum at hsum
  split
  · rename_i hzero
    rw [integer?_nearest_zero _ Nat.one_pos, (Int.mul_eq_zero.1 hzero).resolve_right hone.ne']
  · have hown := integer?_ofWhole (sum < 0) hsum
    have hsign : sum * unitsPerOne < 0 ↔ sum < 0 :=
      ⟨fun hneg => neg_of_mul_neg_left hneg hone.le, fun hneg => mul_neg_of_neg_of_pos hneg hone⟩
    rw [ofWhole] at hown
    rw [Int.natAbs_mul, Int.natAbs_natCast, decide_eq_decide.2 hsign, hown, signedUnits_natAbs]

/-- A product in the exact range is exact. -/
theorem integer?_mul {x y : Double} {m n : Int} (hx : x.integer? = some m) (hy : y.integer? = some n)
    (hproduct : (m * n).natAbs ≤ exactLimit) : (x * y).integer? = some (m * n) := by
  obtain ⟨s, a, hgrid, rfl, rfl⟩ := exists_finite_of_integer? hx
  obtain ⟨t, b, hgrid', rfl, rfl⟩ := exists_finite_of_integer? hy
  rw [Int.natAbs_mul, natAbs_signedUnits, natAbs_signedUnits] at hproduct
  have hunits : a * unitsPerOne * (b * unitsPerOne) = a * b * unitsPerOne * unitsPerOne := by
    rw [← Nat.mul_assoc, Nat.mul_right_comm a]
  have hsigned : signedUnits (s != t) (a * b) = signedUnits s a * signedUnits t b := by
    cases s <;> cases t <;> simp [signedUnits]
  rw [mul_finite, hunits, integer?_nearest _ hproduct unitsPerOne_pos, hsigned]

/-- Zero times a finite number is zero. -/
theorem integer?_zero_mul {x y : Double} (hx : x.integer? = some 0) (hy : y.isFinite = true) :
    (x * y).integer? = some 0 := by
  obtain ⟨s, a, hgrid, rfl, hzero⟩ := exists_finite_of_integer? hx
  obtain rfl : 0 = a := by rw [← natAbs_signedUnits s a, ← hzero, Int.natAbs_zero]
  cases y with
  | nan => cases hy
  | infinite negative => cases hy
  | finite t units hgrid' =>
    rw [mul_finite, Nat.zero_mul, Nat.zero_mul, integer?_nearest_zero _ unitsPerOne_pos]

/-! ### Whole doubles as integers -/

theorem roundHalfUp_mul (n : Nat) {den : Nat} (hden : 0 < den) : roundHalfUp (n * den) den = n := by
  rw [roundHalfUp, Nat.mul_left_comm, Nat.mul_comm n, Nat.mul_add_div (by omega), Nat.div_eq_of_lt (by omega),
    Nat.add_zero]

/-- A finite double is rounded exactly to a whole one. -/
theorem integer?_round_finite (negative : Bool) {units : Nat} (h : OnGrid units) :
    (finite negative units h).round.integer? = some (signedUnits negative (roundHalfUp units unitsPerOne)) := by
  have hone := unitsPerOne_pos
  rw [round_finite]
  by_cases hsmall : roundHalfUp units unitsPerOne ≤ exactLimit
  · exact integer?_ofWhole negative hsmall
  · -- so great a double is whole itself
    have hlarge : exactLimit * unitsPerOne ≤ units := by
      by_contra hless
      have hsum : (exactLimit + 1) * (2 * unitsPerOne) = 2 * (exactLimit * unitsPerOne) + 2 * unitsPerOne := by ring
      have hless : 2 * units + unitsPerOne < (exactLimit + 1) * (2 * unitsPerOne) := by omega
      have hround : roundHalfUp units unitsPerOne < exactLimit + 1 := by
        rw [roundHalfUp, Nat.div_lt_iff_lt_mul (Nat.mul_pos Nat.two_pos hone)]
        exact hless
      omega
    have hdvd : unitsPerOne ∣ units := by
      refine Nat.dvd_trans ?_ h.1
      unfold unitsPerOne at hlarge
      unfold unitsPerOne spacing
      generalize 1074 = a at hlarge ⊢
      have hpow : 2 ^ (53 + a) ≤ units := by
        rw [Nat.pow_add]
        exact hlarge
      have hbits := lt_bitLength hpow
      exact Nat.pow_dvd_pow 2 (by omega)
    have hunits := Nat.div_mul_cancel hdvd
    generalize units / unitsPerOne = n at hunits
    subst hunits
    have hnearest : nearestUnits (n * unitsPerOne) 1 = n * unitsPerOne := by
      have hown := nearestUnits_mul h.1 Nat.one_pos
      rwa [Nat.mul_one] at hown
    obtain ⟨hgrid, hround⟩ := @exists_nearest negative _ _ _ hnearest h.2
    rw [roundHalfUp_mul n hone, ofWhole, hround, integer?_finite]

theorem integer?_round {x : Double} {n : Int} (h : x.integer? = some n) : x.round.integer? = some n := by
  obtain ⟨negative, k, hgrid, rfl, rfl⟩ := exists_finite_of_integer? h
  rw [integer?_round_finite, roundHalfUp_mul k unitsPerOne_pos]

theorem toInt_bounds (x : Double) {low high : Int} (hlow : low ≤ 0) (hhigh : 0 ≤ high) :
    low ≤ x.toInt low high ∧ x.toInt low high ≤ high := by
  unfold toInt
  cases x with
  | nan => exact ⟨hlow, hhigh⟩
  | infinite negative => cases negative <;> simp only [if_true, if_false, Bool.false_eq_true] <;> omega
  | finite negative units h =>
    dsimp only
    omega

/-- The integer part of a whole double is its integer, cut to a range. -/
theorem toInt_of_integer? {x : Double} {n : Int} (h : x.integer? = some n) (low high : Int) :
    x.toInt low high = max low (min high n) := by
  obtain ⟨negative, k, hgrid, rfl, rfl⟩ := exists_finite_of_integer? h
  show max low (min high (signedUnits negative (k * unitsPerOne / unitsPerOne))) = _
  rw [Nat.mul_div_cancel _ unitsPerOne_pos]

theorem toNat64_of_integer? {x : Double} {n : Nat} (h : x.integer? = some (n : Int)) :
    x.toNat64 = min (2 ^ 64 - 1) n := by
  have hpow : Nat.pow 2 64 = 2 ^ 64 := rfl
  rw [toNat64, toInt_of_integer? h, hpow]
  omega

theorem exists_integer?_round {x : Double} (h : x.isFinite = true) : ∃ n, x.round.integer? = some n := by
  cases x with
  | nan => cases h
  | infinite negative => cases h
  | finite negative units hgrid => exact ⟨_, integer?_round_finite negative hgrid⟩

/-- A magnitude is rounded to the magnitude of what the number is rounded to. -/
theorem integer?_round_abs {x : Double} {n : Int} (h : x.round.integer? = some n) :
    x.abs.round.integer? = some (n.natAbs : Int) := by
  cases x with
  | nan => cases h
  | infinite negative => cases h
  | finite negative units hgrid =>
    rw [integer?_round_finite, Option.some.injEq] at h
    rw [← h, natAbs_signedUnits]
    exact integer?_round_finite false hgrid

theorem less_zero_of_integer? {x : Double} {n : Int} (h : x.integer? = some n) : x.less 0 = decide (n < 0) := by
  obtain ⟨negative, k, hgrid, rfl, rfl⟩ := exists_finite_of_integer? h
  have hunits : k * unitsPerOne ≠ 0 ↔ 0 < k := by
    rw [Nat.mul_ne_zero_iff, Nat.pos_iff_ne_zero]
    exact and_iff_left unitsPerOne_pos.ne'
  have hsign : signedUnits negative k < 0 ↔ negative = true ∧ 0 < k := by
    cases negative <;> simp [signedUnits]
  rw [less_zero_finite, decide_eq_decide.2 hsign, decide_eq_decide.2 hunits, Bool.decide_and, Bool.decide_eq_true]

/-- A natural number below `10 ^ 21` is printed with its decimal digits. -/
theorem toText_of_integer? {x : Double} {n : Nat} (h : x.integer? = some (n : Int)) (hn : n < 10 ^ 21) :
    x.toText.toList = decimalDigits n := by
  obtain ⟨negative, k, hgrid, rfl, hk⟩ := exists_finite_of_integer? h
  obtain rfl : k = n := by rw [← natAbs_signedUnits negative k, ← hk, Int.natAbs_natCast]
  have hone := unitsPerOne_pos
  rw [toText_finite]
  unfold magnitudeDigits
  split
  · rename_i hzero
    have hsign : decide (k * unitsPerOne ≠ 0) = false := decide_eq_false (not_not.2 hzero)
    rw [hsign, Bool.and_false, (Nat.mul_eq_zero.1 hzero).resolve_right hone.ne']
    rfl
  · rename_i hunits
    -- Only a zero can be negative and stand for a natural number.
    have hpositive : negative = false := by
      cases negative
      · rfl
      · have hneg : (k : Int) = -(k : Int) := hk
        obtain rfl : k = 0 := by omega
        exact absurd (Nat.zero_mul _) hunits
    have hless : k * unitsPerOne < Nat.pow 10 21 * unitsPerOne := Nat.mul_lt_mul_of_pos_right hn hone
    rw [if_pos ⟨Nat.mul_mod_left _ _, hless⟩, Nat.mul_div_cancel _ hone, hpositive]
    rfl

end Double

end SequenceNotation.Number
