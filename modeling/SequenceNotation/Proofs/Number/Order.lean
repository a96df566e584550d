import SequenceNotation.Proofs.Number.Whole

/-!
# The order of doubles

Doubles are ordered like their units, with the infinities at the ends.  Rounding keeps the order, both that of a
quotient to a double and that of a double to an integer.  Results are numbers unless an infinity or a zero comes in, which
decides by which powers of ten a number can be multiplied and divided again.
-/

namespace SequenceNotation.Number

/-! ### Rounding keeps the order -/

theorem div_le_roundHalfEven (num den : Nat) : num / den ≤ roundHalfEven num den := by
  unfold roundHalfEven
  grind

theorem roundHalfEven_mono {m n den : Nat} (h : m ≤ n) : roundHalfEven m den ≤ roundHalfEven n den := by
  rcases Nat.lt_or_eq_of_le (@Nat.div_le_div_right m n den h) with hless | hsame
  · exact Nat.le_trans (roundHalfEven_le_succ m den) (Nat.le_trans hless (div_le_roundHalfEven n den))
  · have hm := Nat.div_add_mod m den
    have hn := Nat.div_add_mod n den
    rw [hsame] at hm
    have hrest : m % den ≤ n % den := by omega
    unfold roundHalfEven
    dsimp only
    rw [hsame]
    grind

/-- A quotient is rounded to no more than the next power of two. -/
theorem nearestUnits_le_two_pow (num den : Nat) : nearestUnits num den ≤ 2 ^ bitLength (num / den) := by
  have hquotient : num / den < 2 ^ bitLength (num / den) := lt_two_pow_bitLength _
  have hround := roundHalfEven_le_succ num (den * spacing (num / den))
  rw [← Nat.div_div_eq_div_mul] at hround
  unfold nearestUnits
  generalize num / den = quotient at hquotient hround ⊢
  have hsplit : 2 ^ bitLength quotient = 2 ^ (bitLength quotient - (bitLength quotient - 53)) * spacing quotient := by
    rw [spacing, Nat.pow_eq, ← Nat.pow_add, Nat.sub_add_cancel (Nat.sub_le _ _)]
  rw [hsplit] at hquotient ⊢
  have hless := (Nat.div_lt_iff_lt_mul (spacing_pos quotient)).2 hquotient
  exact Nat.mul_le_mul_right _ (Nat.le_trans hround hless)

/-- A quotient is rounded to no less than the power of two in front of it. -/
theorem two_pow_le_nearestUnits {num den : Nat} (h : 0 < num / den) :
    2 ^ (bitLength (num / den) - 1) ≤ nearestUnits num den := by
  have hquotient := two_pow_le h
  have hround := div_le_roundHalfEven num (den * spacing (num / den))
  rw [← Nat.div_div_eq_div_mul] at hround
  unfold nearestUnits
  generalize num / den = quotient at hquotient hround ⊢
  have hsplit : 2 ^ (bitLength quotient - 1) =
      2 ^ (bitLength quotient - 1 - (bitLength quotient - 53)) * spacing quotient := by
    rw [spacing, Nat.pow_eq, ← Nat.pow_add, Nat.sub_add_cancel (by omega)]
  rw [hsplit] at hquotient ⊢
  have hless := (Nat.le_div_iff_mul_le (spacing_pos quotient)).2 hquotient
  exact Nat.mul_le_mul_right _ (Nat.le_trans hless hround)

theorem nearestUnits_mono {m n : Nat} (h : m ≤ n) (den : Nat) : nearestUnits m den ≤ nearestUnits n den := by
  have hquotient : m / den ≤ n / den := Nat.div_le_div_right h
  rcases Nat.lt_or_eq_of_le (bitLength_mono hquotient) with hless | hsame
  · -- a power of two lies between both
    have hpos : 0 < n / den := by
      rcases Nat.eq_zero_or_pos (n / den) with hzero | hpos
      · rw [hzero] at hless
        cases hless
      · exact hpos
    have hpow : 2 ^ bitLength (m / den) ≤ 2 ^ (bitLength (n / den) - 1) :=
      Nat.pow_le_pow_right (by decide) (by omega)
    exact Nat.le_trans (nearestUnits_le_two_pow m den) (Nat.le_trans hpow (two_pow_le_nearestUnits hpos))
  · unfold nearestUnits spacing
    rw [hsame]
    exact Nat.mul_le_mul_right _ (roundHalfEven_mono h)

theorem roundHalfUp_mono {m n : Nat} (h : m ≤ n) (den : Nat) : roundHalfUp m den ≤ roundHalfUp n den :=
  Nat.div_le_div_right (by omega)

namespace Double

/-! ### Ranks -/

/-- The units of a double with their sign; infinities stand behind all finite ones. -/
def rank : Double → Int
  | .nan => 0
  | .infinite negative => signedUnits negative unitsLimit
  | .finite negative units _ => signedUnits negative units

theorem rank_finite_bounds (negative : Bool) {units : Nat} (h : OnGrid units) :
    -(unitsLimit : Int) < signedUnits negative units ∧ signedUnits negative units < unitsLimit := by
  have hlimit := h.2
  cases negative <;> simp only [signedUnits, if_true, if_false, Bool.false_eq_true] <;> omega

theorem rank_bounds_of_isFinite {x : Double} (h : x.isFinite = true) :
    -(unitsLimit : Int) < x.rank ∧ x.rank < unitsLimit := by
  cases x with
  | nan => cases h
  | infinite negative => cases h
  | finite negative units hgrid => exact rank_finite_bounds negative hgrid

theorem rank_infinite (negative : Bool) :
    rank (.infinite negative) = if negative then -(unitsLimit : Int) else unitsLimit :=
  rfl

/-- Infinities compare by their signs. -/
theorem signedUnits_compare {limit : Nat} (hpos : 0 < limit) (a b : Bool) :
    (signedUnits a limit < signedUnits b limit ↔ (a && !b) = true) ∧
      (signedUnits a limit = signedUnits b limit ↔ (a == b) = true) := by
  cases a <;> cases b <;> simp [signedUnits] <;> omega

/-- An infinity is beyond what is within the limit, to the side of its sign. -/
theorem signedUnits_beyond {limit : Nat} {units : Int} (hlow : -(limit : Int) < units) (hhigh : units < limit)
    (a : Bool) :
    (signedUnits a limit < units ↔ a = true) ∧ (units < signedUnits a limit ↔ (!a) = true) ∧
      signedUnits a limit ≠ units := by
  cases a <;> simp [signedUnits] <;> omega

/-- Numbers compare like their ranks. -/
theorem compare_rank {x y : Double} (hx : x.isNan = false) (hy : y.isNan = false) :
    (x.less y ↔ x.rank < y.rank) ∧ (x.equal y ↔ x.rank = y.rank) := by
  have hnever {p : Prop} (h : ¬p) : false = true ↔ p := iff_of_false Bool.false_ne_true h
  cases x with
  | nan => cases hx
  | infinite a =>
    cases y with
    | nan => cases hy
    | infinite b =>
      obtain ⟨hless, hequal⟩ := signedUnits_compare unitsLimit_pos a b
      exact ⟨hless.symm, hequal.symm⟩
    | finite t v h =>
      obtain ⟨hlow, hhigh⟩ := rank_finite_bounds t h
      obtain ⟨hless, -, hne⟩ := signedUnits_beyond hlow hhigh a
      exact ⟨hless.symm, hnever hne⟩
  | finite s u h =>
    obtain ⟨hlow, hhigh⟩ := rank_finite_bounds s h
    cases y with
    | nan => cases hy
    | infinite b =>
      obtain ⟨-, hless, hne⟩ := signedUnits_beyond hlow hhigh b
      exact ⟨hless.symm, hnever hne.symm⟩
    | finite t v h' => simp only [less, equal, rank, decide_eq_true_iff, beq_iff_eq, and_self]

theorem less_iff {x y : Double} : x.less y ↔ x.isNan = false ∧ y.isNan = false ∧ x.rank < y.rank := by
  cases hx : x.isNan
  · cases hy : y.isNan
    · simp [(compare_rank hx hy).1]
    · cases y <;> cases x <;> simp_all [less, isNan]
  · cases x <;> simp_all [less, isNan]

theorem atMost_iff {x y : Double} : x.atMost y ↔ x.isNan = false ∧ y.isNan = false ∧ x.rank ≤ y.rank := by
  rw [atMost, Bool.or_eq_true]
  cases hx : x.isNan
  · cases hy : y.isNan
    · rw [(compare_rank hx hy).1, (compare_rank hx hy).2, Int.le_iff_lt_or_eq]
      simp
    · cases y <;> cases x <;> simp_all [less, equal, isNan]
  · cases x <;> simp_all [less, equal, isNan]

theorem atMost_refl {x : Double} (hx : x.isNan = false) : x.atMost x :=
  atMost_iff.2 ⟨hx, hx, Int.le_refl _⟩

theorem atMost_trans {x y z : Double} (h : x.atMost y) (h' : y.atMost z) : x.atMost z := by
  rw [atMost_iff] at h h' ⊢
  exact ⟨h.1, h'.2.1, Int.le_trans h.2.2 h'.2.2⟩

/-- A number between finite ones is finite. -/
theorem isFinite_of_between {low high x : Double} (hlow : low.isFinite = true) (hhigh : high.isFinite = true)
    (hfirst : low.atMost x) (hlast : x.atMost high) : x.isFinite = true := by
  obtain ⟨-, hx, hleft⟩ := atMost_iff.1 hfirst
  have hright := (atMost_iff.1 hlast).2.2
  have hbelow := rank_bounds_of_isFinite hlow
  have habove := rank_bounds_of_isFinite hhigh
  cases x with
  | nan => cases hx
  | infinite negative =>
    rw [rank_infinite] at hleft hright
    cases negative <;> simp only [if_true, if_false, Bool.false_eq_true] at hleft hright <;> omega
  | finite negative units h => rfl

/-! ### Integers -/

/-- A function of magnitudes that keeps their order keeps that of numbers with a sign. -/
theorem signedUnits_mono {f : Nat → Nat} (hmono : ∀ m n, m ≤ n → f m ≤ f n) {m n : Int}
    (h : m ≤ n) : signedUnits (m < 0) (f m.natAbs) ≤ signedUnits (n < 0) (f n.natAbs) := by
  unfold signedUnits
  by_cases hm : m < 0
  · by_cases hn : n < 0
    · have := hmono n.natAbs m.natAbs (by omega)
      simp only [hm, hn, decide_true, if_true]
      omega
    · simp only [hm, hn, decide_true, decide_false, if_true, if_false, Bool.false_eq_true]
      omega
  · have hn : ¬n < 0 := by omega
    have := hmono m.natAbs n.natAbs (by omega)
    simp only [hm, hn, decide_false, if_false, Bool.false_eq_true]
    omega

/-- The sign of zero does not matter. -/
theorem signedUnits_of_signed {f : Nat → Nat} (hzero : f 0 = 0) (negative : Bool) (n : Nat) :
    signedUnits negative (f n) = signedUnits (signedUnits negative n < 0) (f (signedUnits negative n).natAbs) := by
  rw [natAbs_signedUnits]
  rcases Nat.eq_zero_or_pos n with rfl | hpos
  · rw [hzero, signedUnits_zero, signedUnits_zero]
  · cases negative
    · rw [show signedUnits false n = n from rfl, decide_eq_false (by omega)]
    · rw [show signedUnits true n = -n from rfl, decide_eq_true (by omega)]

theorem isNan_nearest (negative : Bool) (num den : Nat) : (nearest negative num den).isNan = false := by
  unfold nearest
  split <;> rfl

theorem rank_nearest (negative : Bool) (num den : Nat) :
    (nearest negative num den).rank = signedUnits negative (min (nearestUnits num den) unitsLimit) := by
  unfold nearest
  split
  · rw [Nat.min_eq_left (by omega)]
    rfl
  · rw [Nat.min_eq_right (by omega)]
    rfl

theorem nearestUnits_zero (den : Nat) : nearestUnits 0 den = 0 := by
  simp [nearestUnits, roundHalfEven]

theorem isNan_ofInt (n : Int) : (ofInt n).isNan = false := by
  rw [ofInt, ofWhole, isNan_nearest]

/-- Greater integers have greater doubles, or the same. -/
theorem atMost_ofInt {m n : Int} (h : m ≤ n) : (ofInt m).atMost (ofInt n) := by
  refine atMost_iff.2 ⟨isNan_ofInt m, isNan_ofInt n, ?_⟩
  rw [ofInt, ofInt, ofWhole, ofWhole, rank_nearest, rank_nearest]
  refine @signedUnits_mono (fun k => min (nearestUnits (k * unitsPerOne) 1) unitsLimit) (fun j k hle => ?_) m n h
  exact min_le_min_right _ (nearestUnits_mono (Nat.mul_le_mul_right _ hle) 1)

theorem roundHalfUp_zero : roundHalfUp 0 unitsPerOne = 0 := by
  have hown := roundHalfUp_mul 0 unitsPerOne_pos
  rwa [Nat.zero_mul] at hown

theorem two_pow_le_roundHalfUp_unitsLimit : 2 ^ 63 ≤ roundHalfUp unitsLimit unitsPerOne := by
  decide +kernel

/-- The nearest integer is found from the rank. -/
theorem toInt64_round {x : Double} (h : x.isNan = false) :
    x.round.toInt64 =
      max (-2 ^ 63) (min (2 ^ 63 - 1) (signedUnits (x.rank < 0) (roundHalfUp x.rank.natAbs unitsPerOne))) := by
  have hpow : Nat.pow 2 63 = 2 ^ 63 := rfl
  have hsigned (negative : Bool) (n : Nat) :=
    @signedUnits_of_signed (roundHalfUp · unitsPerOne) roundHalfUp_zero negative n
  rw [toInt64, hpow]
  cases x with
  | nan => cases h
  | infinite negative =>
    have hlimit := two_pow_le_roundHalfUp_unitsLimit
    rw [rank, ← hsigned]
    generalize roundHalfUp unitsLimit unitsPerOne = n at hlimit
    cases negative <;> simp only [round, toInt, signedUnits, if_true, if_false, Bool.false_eq_true] <;> omega
  | finite negative units hgrid =>
    rw [toInt_of_integer? (integer?_round_finite negative hgrid), rank, ← hsigned]
    rfl

/-- Rounding to an integer keeps the order. -/
theorem toInt64_round_mono {x y : Double} (h : x.atMost y) : x.round.toInt64 ≤ y.round.toInt64 := by
  obtain ⟨hx, hy, hrank⟩ := atMost_iff.1 h
  have hmono := @signedUnits_mono (roundHalfUp · unitsPerOne) (fun m n hle => roundHalfUp_mono hle _) _ _ hrank
  rw [toInt64_round hx, toInt64_round hy]
  omega

theorem rank_of_integer? {x : Double} {n : Int} (h : x.integer? = some n) : x.rank = n * unitsPerOne := by
  obtain ⟨negative, k, hgrid, rfl, rfl⟩ := exists_finite_of_integer? h
  exact signedUnits_mul negative k unitsPerOne

theorem isNan_of_integer? {x : Double} {n : Int} (h : x.integer? = some n) : x.isNan = false := by
  obtain ⟨negative, k, hgrid, rfl, rfl⟩ := exists_finite_of_integer? h
  rfl

theorem integer?_ofInt {n : Int} (hn : n.natAbs ≤ exactLimit) : (ofInt n).integer? = some n := by
  have hown := integer?_ofWhole (n < 0) hn
  rwa [signedUnits_natAbs] at hown

/-- An integer is rounded to no other. -/
theorem atMost_round_of_integer? {x : Double} {n : Int} (h : x.integer? = some n) (hn : n.natAbs ≤ exactLimit) :
    x.atMost (ofInt x.round.toInt64) ∧ (ofInt x.round.toInt64).atMost x := by
  have hlimit : exactLimit = 2 ^ 53 := rfl
  have hround : x.round.toInt64 = n := by
    rw [toInt64, toInt_of_integer? (integer?_round h), show Nat.pow 2 63 = 2 ^ 63 from rfl]
    omega
  have hrank := (rank_of_integer? h).trans (rank_of_integer? (integer?_ofInt hn)).symm
  rw [hround, atMost_iff, atMost_iff, hrank]
  have hx := isNan_of_integer? h
  exact ⟨⟨hx, isNan_ofInt n, Int.le_refl _⟩, isNan_ofInt n, hx, Int.le_refl _⟩

/-! ### Numbers that are none -/

theorem isNan_round (x : Double) : x.round.isNan = x.isNan := by
  cases x with
  | nan => rfl
  | infinite negative => rfl
  | finite negative units h =>
    rw [round_finite, ofWhole, isNan_nearest]
    rfl

theorem isNan_of_isFinite {x : Double} (h : x.isFinite = true) : x.isNan = false := by
  cases x with
  | nan => cases h
  | infinite negative => rfl
  | finite negative units h => rfl

theorem isNan_mul {x y : Double} (hx : x.isFinite = true) (hy : y.isFinite = true) : (x * y).isNan = false := by
  cases x with
  | nan => cases hx
  | infinite negative => cases hx
  | finite s a h =>
    cases y with
    | nan => cases hy
    | infinite negative => cases hy
    | finite t b h' => rw [mul_finite, isNan_nearest]

theorem isNan_add {x y : Double} (hx : x.isFinite = true) (hy : y.isNan = false) : (x + y).isNan = false := by
  cases x with
  | nan => cases hx
  | infinite negative => cases hx
  | finite s a h =>
    cases y with
    | nan => cases hy
    | infinite negative => rfl
    | finite t b h' =>
      show (if _ then nearest _ _ _ else nearest _ _ _).isNan = false
      split <;> exact isNan_nearest ..

/-- A number by which others can be multiplied and divided again. -/
structure IsScale (scale : Double) : Prop where
  finite : scale.isFinite = true
  not_zero : scale.isZero = false

theorem div_finite {s t : Bool} {a b : Nat} {h : OnGrid a} {h' : OnGrid b} (hb : b ≠ 0) :
    finite s a h / finite t b h' = nearest (s != t) (a * unitsPerOne) b := by
  rw [show finite s a h / finite t b h' = div (finite s a h) (finite t b h') from rfl, div, if_neg hb]

theorem isNan_div {x y : Double} (hx : x.isNan = false) (hy : y.IsScale) : (x / y).isNan = false := by
  obtain ⟨hfinite, hzero⟩ := hy
  cases y with
  | nan => cases hfinite
  | infinite negative => cases hfinite
  | finite t b h' =>
    have hb : b ≠ 0 := by simpa [isZero] using hzero
    cases x with
    | nan => cases hx
    | infinite negative => rfl
    | finite s a h => rw [div_finite hb, isNan_nearest]

/-- What is multiplied by an infinity or a zero cannot be divided by it again. -/
theorem isNan_mul_round_div {x y : Double} (hx : x.isFinite = true) (hy : ¬y.IsScale) :
    ((x * y).round / y).isNan = true := by
  have hnone (negative : Bool) (den : Nat) : ∃ hgrid, nearest negative 0 den = finite negative 0 hgrid :=
    exists_nearest (nearestUnits_zero den) unitsLimit_pos
  cases x with
  | nan => cases hx
  | infinite negative => cases hx
  | finite s a h =>
    cases y with
    | nan => rfl
    | infinite b =>
      show (div (round (if a = 0 then nan else infinite (s != b))) (infinite b)).isNan = true
      split <;> rfl
    | finite t b h' =>
      obtain rfl : b = 0 := by
        by_contra hb
        exact hy ⟨rfl, by simpa [isZero] using hb⟩
      obtain ⟨hgrid, hproduct⟩ := hnone (s != t) unitsPerOne
      obtain ⟨hgrid', hrounded⟩ := hnone (s != t) 1
      rw [mul_finite, Nat.mul_zero, hproduct, round_finite, roundHalfUp_zero, ofWhole, Nat.zero_mul, hrounded]
      rfl

/-! ### Products of positive numbers -/

theorem rank_zero : (0 : Double).rank = 0 := by
  obtain ⟨hgrid, hzero⟩ := exists_nearest_zero
  rw [zero_eq_nearest, hzero]
  rfl

/-- A positive number is an infinity or has units. -/
theorem exists_of_pos {x : Double} (h : (0 : Double).less x = true) :
    x = infinite false ∨ ∃ units hgrid, 0 < units ∧ x = finite false units hgrid := by
  obtain ⟨-, hnumber, hrank⟩ := less_iff.1 h
  rw [rank_zero] at hrank
  cases x with
  | nan => cases hnumber
  | infinite negative =>
    rw [rank_infinite] at hrank
    cases negative with
    | false => exact .inl rfl
    | true =>
      rw [if_pos rfl] at hrank
      omega
  | finite negative units hgrid =>
    cases negative with
    | false => exact .inr ⟨units, hgrid, Int.natCast_pos.1 hrank, rfl⟩
    | true =>
      replace hrank : 0 < -(units : Int) := hrank
      omega

theorem atMost_infinite {x : Double} (h : x.isNan = false) : x.atMost (infinite false) = true := by
  refine atMost_iff.2 ⟨h, rfl, ?_⟩
  cases hfinite : x.isFinite with
  | true => exact Int.le_of_lt (rank_bounds_of_isFinite hfinite).2
  | false =>
    cases x with
    | nan => cases h
    | infinite negative =>
      have hpos := unitsLimit_pos
      rw [rank_infinite, rank_infinite, if_neg Bool.false_ne_true]
      split <;> omega
    | finite negative units hgrid => cases hfinite

theorem infinite_mul {x : Double} (h : (0 : Double).less x = true) : infinite false * x = infinite false := by
  rcases exists_of_pos h with rfl | ⟨units, hgrid, hpos, rfl⟩
  · rfl
  · exact if_neg hpos.ne'

theorem mul_infinite {x : Double} (h : (0 : Double).less x = true) : x * infinite false = infinite false := by
  rcases exists_of_pos h with rfl | ⟨units, hgrid, hpos, rfl⟩
  · rfl
  · exact if_neg hpos.ne'

theorem isNan_mul_of_pos {x y : Double} (hx : (0 : Double).less x = true) (hy : (0 : Double).less y = true) :
    (x * y).isNan = false := by
  rcases exists_of_pos hx with rfl | ⟨units, hgrid, -, rfl⟩
  · rw [infinite_mul hy]
    rfl
  · rcases exists_of_pos hy with rfl | ⟨units', hgrid', -, rfl⟩
    · rw [mul_infinite hx]
      rfl
    · rw [mul_finite, isNan_nearest]

/-- A positive factor keeps the order of positive numbers. -/
theorem atMost_mul {x y z : Double} (hx : (0 : Double).less x = true) (hy : (0 : Double).less y = true)
    (h : y.atMost z = true) : (x * y).atMost (x * z) = true := by
  obtain ⟨-, hnumber, hrank⟩ := atMost_iff.1 h
  have hz : (0 : Double).less z = true := by
    rw [less_iff] at hy ⊢
    exact ⟨hy.1, hnumber, Int.lt_of_lt_of_le hy.2.2 hrank⟩
  rcases exists_of_pos hx with rfl | ⟨u, hu, -, rfl⟩
  · rw [infinite_mul hy, infinite_mul hz]
    exact atMost_refl rfl
  rcases exists_of_pos hz with rfl | ⟨b, hb, -, rfl⟩
  · rw [mul_infinite hx]
    exact atMost_infinite (isNan_mul_of_pos hx hy)
  rcases exists_of_pos hy with rfl | ⟨a, ha, -, rfl⟩
  · -- no finite number is as great as the infinity
    have hbound := (rank_bounds_of_isFinite (show (finite false b hb).isFinite = true from rfl)).2
    rw [rank_infinite] at hrank
    exact absurd hrank (Int.not_le.2 hbound)
  · have hunits : a ≤ b := Int.ofNat_le.1 hrank
    rw [mul_finite, mul_finite, atMost_iff, isNan_nearest, isNan_nearest, rank_nearest, rank_nearest]
    have hproduct := nearestUnits_mono (Nat.mul_le_mul_left u hunits) unitsPerOne
    exact ⟨rfl, rfl, Int.ofNat_le.2 (min_le_min_right _ hproduct)⟩

/-- The product of positive numbers is not negative. -/
theorem zero_atMost_mul {x y : Double} (hx : (0 : Double).less x = true) (hy : (0 : Double).less y = true) :
    (0 : Double).atMost (x * y) = true := by
  refine atMost_iff.2 ⟨(less_iff.1 hx).1, isNan_mul_of_pos hx hy, ?_⟩
  rw [rank_zero]
  rcases exists_of_pos hx with rfl | ⟨u, hu, -, rfl⟩
  · rw [infinite_mul hy]
    exact Int.natCast_nonneg _
  · rcases exists_of_pos hy with rfl | ⟨a, ha, -, rfl⟩
    · rw [mul_infinite hx]
      exact Int.natCast_nonneg _
    · rw [mul_finite, rank_nearest]
      exact Int.natCast_nonneg _

/-- Counts are positive, and ordered as they are. -/
theorem ofNat_pos {n : Nat} (h : 0 < n) : (0 : Double).less (ofNat n) = true := by
  have hunits : 0 < n * unitsPerOne / 1 := by
    rw [Nat.div_one]
    exact Nat.mul_pos h unitsPerOne_pos
  have hrounded := two_pow_le_nearestUnits hunits
  have hpow := Nat.two_pow_pos (bitLength (n * unitsPerOne / 1) - 1)
  have hlimit := unitsLimit_pos
  rw [less_iff, rank_zero, ofNat, ofWhole, isNan_nearest, rank_nearest]
  refine ⟨isNan_ofNat 0, rfl, ?_⟩
  show (0 : Int) < (min (nearestUnits (n * unitsPerOne) 1) unitsLimit : Nat)
  omega

theorem atMost_ofNat {m n : Nat} (h : m ≤ n) : (ofNat m).atMost (ofNat n) = true := by
  have hcount (k : Nat) : ofInt k = ofNat k := by
    rw [ofInt, ofNat, Int.natAbs_natCast, decide_eq_false (Int.not_lt.2 (Int.natCast_nonneg k))]
  have hown := atMost_ofInt (Int.ofNat_le.2 h)
  rwa [hcount, hcount] at hown

/-! ### Powers of ten -/

theorem isFinite_nearest_iff (negative : Bool) (num den : Nat) :
    (nearest negative num den).isFinite = true ↔ nearestUnits num den < unitsLimit := by
  unfold nearest
  split
  · exact iff_of_true rfl ‹_›
  · exact iff_of_false Bool.false_ne_true ‹_›

theorem isScale_nearest (negative : Bool) {num den : Nat} (hpos : 0 < num / den)
    (hlimit : nearestUnits num den < unitsLimit) : (nearest negative num den).IsScale := by
  refine ⟨(isFinite_nearest_iff ..).2 hlimit, ?_⟩
  have hunits := two_pow_le_nearestUnits hpos
  have hpow := Nat.two_pow_pos (bitLength (num / den) - 1)
  obtain ⟨hgrid, hnearest⟩ := @exists_nearest negative _ _ _ rfl hlimit
  rw [hnearest]
  exact beq_eq_false_iff_ne.2 (by omega)

/-- A quotient of at most one is finite. -/
theorem nearestUnits_lt_of_div_le {num den : Nat} (h : num / den ≤ unitsPerOne) :
    nearestUnits num den < unitsLimit := by
  have hpow : 2 ^ bitLength (num / den) ≤ 2 ^ bitLength unitsPerOne :=
    Nat.pow_le_pow_right (by decide) (bitLength_mono h)
  have hlimit : 2 ^ bitLength unitsPerOne < unitsLimit := by decide +kernel
  exact Nat.lt_of_le_of_lt (nearestUnits_le_two_pow num den) (Nat.lt_of_le_of_lt hpow hlimit)

/-- The units of a power of ten. -/
def powerUnits (n : Nat) : Nat :=
  nearestUnits (10 ^ n * unitsPerOne) 1

theorem powerUnits_mono {m n : Nat} (h : m ≤ n) : powerUnits m ≤ powerUnits n :=
  nearestUnits_mono (Nat.mul_le_mul_right _ (Nat.pow_le_pow_right (by decide) h)) 1

theorem powerUnits_lt_iff (n : Nat) : powerUnits n < unitsLimit ↔ n ≤ 308 := by
  have hlast : powerUnits 308 < unitsLimit := by decide +kernel
  have hnext : ¬powerUnits 309 < unitsLimit := by decide +kernel
  constructor
  · intro h
    by_contra hmore
    exact hnext (Nat.lt_of_le_of_lt (powerUnits_mono (Nat.not_le.1 hmore)) h)
  · exact fun h => Nat.lt_of_le_of_lt (powerUnits_mono h) hlast

theorem ofNat_power (n : Nat) : ofNat (10 ^ n) = nearest false (10 ^ n * unitsPerOne) 1 := by
  rw [ofNat, ofWhole]

/-- Up to `10 ^ 308` powers of ten are finite. -/
theorem isScale_power_iff (n : Nat) : (ofNat (10 ^ n)).IsScale ↔ n ≤ 308 := by
  have hpos : 0 < 10 ^ n * unitsPerOne / 1 := by
    rw [Nat.div_one]
    exact Nat.mul_pos (Nat.pow_pos (by decide)) unitsPerOne_pos
  rw [← powerUnits_lt_iff, ofNat_power]
  exact ⟨fun h => (isFinite_nearest_iff ..).1 h.finite, isScale_nearest false hpos⟩

/-- Down to `10 ^ (-308)` the inverses of powers of ten are not zero. -/
theorem isScale_inverse_power_iff (n : Nat) : (1 / ofNat (10 ^ n)).IsScale ↔ n ≤ 308 := by
  have hlarge : unitsLimit ≤ unitsPerOne * unitsPerOne := by decide +kernel
  have hone : unitsPerOne ≤ powerUnits n := by
    have hfirst : powerUnits 0 = unitsPerOne := by decide +kernel
    rw [← hfirst]
    exact powerUnits_mono (Nat.zero_le n)
  have hunit : ∃ hgrid, (1 : Double) = finite false unitsPerOne hgrid := by
    have hown := @exists_ofNat 1 (by decide)
    rwa [Nat.one_mul] at hown
  obtain ⟨hgrid, hunit⟩ := hunit
  rw [← powerUnits_lt_iff, ofNat_power, hunit]
  constructor
  · rintro ⟨-, hzero⟩
    -- A power beyond the doubles is infinite, and its inverse is zero.
    by_contra hlimit
    have hpower : nearest false (10 ^ n * unitsPerOne) 1 = infinite false := by
      rw [powerUnits] at hlimit
      rw [nearest, dif_neg hlimit]
    obtain ⟨hgrid', hnone⟩ := @exists_nearest (false != false) 0 1 _ (nearestUnits_zero 1) unitsLimit_pos
    have hquotient : finite false unitsPerOne hgrid / infinite false = nearest (false != false) 0 1 := by
      show div _ _ = _
      rw [div]
    rw [hpower, hquotient, hnone] at hzero
    cases hzero
  · intro hlimit
    obtain ⟨hgrid', hpower⟩ := @exists_nearest false (10 ^ n * unitsPerOne) 1 (powerUnits n) rfl hlimit
    have hpos := Nat.lt_of_lt_of_le unitsPerOne_pos hone
    rw [hpower, div_finite (Nat.ne_of_gt hpos)]
    refine isScale_nearest _ ?_ ?_
    · exact Nat.div_pos (Nat.le_trans (Nat.le_of_lt hlimit) hlarge) hpos
    · exact nearestUnits_lt_of_div_le (Nat.div_le_of_le_mul (Nat.mul_le_mul_right _ hone))

end Double

end SequenceNotation.Number
