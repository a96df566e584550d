import SequenceNotation.Proofs.Notation.IntegerLiteral
import SequenceNotation.Proofs.Number.Order
import SequenceNotation.Sequence.Kind.Draw

/-!
# Draws within their range

A draw asks a source of random values for any integer or number of a range.  Without places the ends of the range are
rounded before, so that the draw stays between them exactly if rounding does not lead out.  With places the number is
rounded and moved back into the range, which needs a range that the source accepts and a power of ten that is neither
infinite nor zero.
-/

namespace SequenceNotation.Sequence

open SequenceNotation.Number SequenceNotation.Notation SequenceNotation.Text

/-! ### Sources of random values -/

/-- A range of numbers that a source accepts: it is not empty, and its ends and their distance are finite. -/
structure ValidRange (low high : Double) : Prop where
  low_finite : low.isFinite = true
  high_finite : high.isFinite = true
  span_finite : (high - low).isFinite = true
  ordered : low.atMost high

/-- A source of random values answers with any integer or number of a range, both ends included. -/
structure RandomSource where
  integer : Int → Int → Int
  number : Double → Double → Double
  integer_mem : ∀ low high, low ≤ high → low ≤ integer low high ∧ integer low high ≤ high
  number_mem : ∀ low high, ValidRange low high → low.atMost (number low high) ∧ (number low high).atMost high

namespace RandomSource

/-- The source that always answers with the lower end. -/
def lowest : RandomSource where
  integer low _ := low
  number low _ := low
  integer_mem _ _ h := ⟨Int.le_refl _, h⟩
  number_mem _ _ h := ⟨Double.atMost_refl (Double.isNan_of_isFinite h.low_finite), h.ordered⟩

/-- The source that always answers with the upper end. -/
def highest : RandomSource where
  integer _ high := high
  number _ high := high
  integer_mem _ _ h := ⟨h, Int.le_refl _⟩
  number_mem _ _ h := ⟨h.ordered, Double.atMost_refl (Double.isNan_of_isFinite h.high_finite)⟩

end RandomSource

/-- A number that is moved into a range lies in it. -/
theorem atMost_clamp {low high x : Double} (h : low.atMost high) (hx : x.isNan = false) :
    low.atMost (clamp low high x) ∧ (clamp low high x).atMost high := by
  obtain ⟨hlow, hhigh, hrank⟩ := Double.atMost_iff.1 h
  unfold clamp
  split
  · exact ⟨Double.atMost_refl hlow, h⟩
  · rename_i hless
    rw [Double.less_iff] at hless
    have hfirst := Int.not_lt.1 fun hlt => hless ⟨hx, hlow, hlt⟩
    split
    · exact ⟨h, Double.atMost_refl hhigh⟩
    · rename_i hmore
      rw [Double.less_iff] at hmore
      have hlast := Int.not_lt.1 fun hlt => hmore ⟨hhigh, hx, hlt⟩
      exact ⟨Double.atMost_iff.2 ⟨hlow, hx, hfirst⟩, Double.atMost_iff.2 ⟨hx, hhigh, hlast⟩⟩

theorem isNan_clamp {low high x : Double} (hx : x.isNan = true) : (clamp low high x).isNan = true := by
  cases x with
  | nan => cases low <;> cases high <;> rfl
  | infinite negative => cases hx
  | finite negative units h => cases hx

theorem drawInteger_mem (outcome : Nat) {low high : Int} (h : low ≤ high) :
    low ≤ drawInteger outcome low high ∧ drawInteger outcome low high ≤ high := by
  have hpos : 0 < high - low + 1 := by omega
  have hlow := Int.emod_nonneg (outcome : Int) hpos.ne'
  have hhigh := Int.emod_lt_of_pos (outcome : Int) hpos
  unfold drawInteger
  omega

/-- The share of a draw is at most one, and so it is finite. -/
theorem isFinite_share (outcome : Nat) :
    (Double.ofNat (outcome % (drawSteps + 1)) / Double.ofNat drawSteps).isFinite = true := by
  have hcount : outcome % (drawSteps + 1) ≤ Double.exactLimit :=
    Nat.lt_succ_iff.1 (Nat.mod_lt outcome (Nat.succ_pos drawSteps))
  obtain ⟨hgrid, hnum⟩ := Double.exists_ofNat hcount
  obtain ⟨hgrid', hden⟩ := @Double.exists_ofNat drawSteps (Nat.le_refl _)
  have hsteps : drawSteps * Double.unitsPerOne ≠ 0 := Nat.mul_ne_zero (by decide) unitsPerOne_pos.ne'
  rw [hnum, hden, Double.div_finite hsteps, Double.isFinite_nearest_iff]
  exact Double.nearestUnits_lt_of_div_le
    (Nat.div_le_of_le_mul (Nat.mul_le_mul_right _ (Nat.mul_le_mul_right _ hcount)))

theorem drawNumber_mem (outcome : Nat) {low high : Double} (h : ValidRange low high) :
    low.atMost (drawNumber outcome low high) ∧ (drawNumber outcome low high).atMost high :=
  atMost_clamp h.ordered (Double.isNan_add h.low_finite (Double.isNan_mul (isFinite_share outcome) h.span_finite))

/-- The source of an outcome. -/
def RandomSource.ofOutcome (outcome : Nat) : RandomSource where
  integer := drawInteger outcome
  number := drawNumber outcome
  integer_mem _ _ := drawInteger_mem outcome
  number_mem _ _ := drawNumber_mem outcome

/-! ### Draws from a source -/

/-- The value of a draw from a source. -/
def drawFrom (source : RandomSource) (start : Double) (spread : RandomSpread) : Double :=
  let (low, high) := drawRange start spread
  if spread.precision = 0 then Double.ofInt (source.integer low.round.toInt64 high.round.toInt64)
  else clamp low high (roundToPlaces spread.precision (source.number low high))

theorem draw_eq (outcome : Nat) (start : Double) (spread : RandomSpread) :
    draw outcome start spread = drawFrom (.ofOutcome outcome) start spread :=
  rfl

/-- Whether the source accepts the range that a draw asks for. -/
def RangeAccepted (start : Double) (spread : RandomSpread) : Prop :=
  let (low, high) := drawRange start spread
  if spread.precision = 0 then low.round.toInt64 ≤ high.round.toInt64 else ValidRange low high

/-- A value between two ends, whichever of them is the lower one. -/
def Between (first last x : Double) : Prop :=
  (first.atMost x ∧ x.atMost last) ∨ (last.atMost x ∧ x.atMost first)

/-- The end of a draw that is the magnitude away from the start. -/
def drawStop (start : Double) (spread : RandomSpread) : Double :=
  if spread.negative then start - spread.magnitude else start + spread.magnitude

/-- The source accepts the range, and the value lies between the start and the end that is the magnitude away. -/
structure DrawHeld (source : RandomSource) (start : Double) (spread : RandomSpread) : Prop where
  accepted : RangeAccepted start spread
  between : Between start (drawStop start spread) (drawFrom source start spread)

section Ends

variable {start low high : Double} {spread : RandomSpread}

/-- The lower end is the start exactly if the other end is not below it. -/
theorem drawRange_cases (h : drawRange start spread = (low, high)) :
    (start.atMost (drawStop start spread) ∧ low = start ∧ high = drawStop start spread) ∨
      (¬start.atMost (drawStop start spread) ∧ low = drawStop start spread ∧ high = start) := by
  have hrange : drawRange start spread =
      if start.atMost (drawStop start spread) then (start, drawStop start spread) else (drawStop start spread, start) :=
    rfl
  rw [hrange] at h
  split at h
  · rename_i hmore
    obtain ⟨rfl, rfl⟩ := Prod.mk.inj h
    exact .inl ⟨hmore, rfl, rfl⟩
  · rename_i hmore
    obtain ⟨rfl, rfl⟩ := Prod.mk.inj h
    exact .inr ⟨hmore, rfl, rfl⟩

/-- The ends are ordered if they are numbers. -/
theorem drawRange_ordered (h : drawRange start spread = (low, high)) (hlow : low.isNan = false)
    (hhigh : high.isNan = false) : low.atMost high := by
  rcases drawRange_cases h with ⟨hmore, rfl, rfl⟩ | ⟨hmore, rfl, rfl⟩
  · exact hmore
  · rw [Double.atMost_iff] at hmore ⊢
    exact ⟨hlow, hhigh, Int.le_of_lt (Int.not_le.1 fun hle => hmore ⟨hhigh, hlow, hle⟩)⟩

/-- Between the start and the other end is what is neither below the lower nor above the upper end. -/
theorem between_iff (h : drawRange start spread = (low, high)) (x : Double) :
    Between start (drawStop start spread) x ↔ low.atMost x ∧ x.atMost high := by
  unfold Between
  rcases drawRange_cases h with ⟨hmore, rfl, rfl⟩ | ⟨hmore, rfl, rfl⟩
  · refine ⟨fun hx => hx.elim id fun hother => ?_, .inl⟩
    exact ⟨Double.atMost_trans hmore hother.1, Double.atMost_trans hother.2 hmore⟩
  · exact ⟨fun hx => hx.elim (fun hother => absurd (Double.atMost_trans hother.1 hother.2) hmore) id, .inr⟩

/-- Draws of integers are held if rounding leads to neither side out of the range. -/
theorem drawHeld_integers_iff (h : drawRange start spread = (low, high)) (hplaces : spread.precision = 0) :
    (∀ source, DrawHeld source start spread) ↔
      low.atMost (.ofInt low.round.toInt64) ∧ (Double.ofInt high.round.toInt64).atMost high := by
  have hdrawn (source : RandomSource) :
      drawFrom source start spread = Double.ofInt (source.integer low.round.toInt64 high.round.toInt64) := by
    rw [drawFrom, h]
    exact if_pos hplaces
  have haccepted : RangeAccepted start spread ↔ low.round.toInt64 ≤ high.round.toInt64 := by
    rw [RangeAccepted, h]
    exact iff_of_eq (if_pos hplaces)
  constructor
  · intro hheld
    -- Two sources are enough: one that draws the lowest integer, and one that draws the highest.
    have hlow := ((between_iff h _).1 (hheld .lowest).between).1
    have hhigh := ((between_iff h _).1 (hheld .highest).between).2
    rw [hdrawn] at hlow hhigh
    exact ⟨hlow, hhigh⟩
  · rintro ⟨hlow, hhigh⟩ source
    have hordered := Double.toInt64_round_mono
      (drawRange_ordered h (Double.atMost_iff.1 hlow).1 (Double.atMost_iff.1 hhigh).2.1)
    obtain ⟨hfirst, hlast⟩ := source.integer_mem _ _ hordered
    refine ⟨haccepted.2 hordered, (between_iff h _).2 ?_⟩
    have hmore := Double.atMost_trans hlow (Double.atMost_ofInt hfirst)
    have hless := Double.atMost_trans (Double.atMost_ofInt hlast) hhigh
    rw [hdrawn]
    exact ⟨hmore, hless⟩

/-- Draws with places are held if the range is accepted and the places can be divided out again. -/
theorem drawHeld_places_iff (h : drawRange start spread = (low, high)) (hplaces : spread.precision ≠ 0) :
    (∀ source, DrawHeld source start spread) ↔
      ValidRange low high ∧ (placesScale spread.precision).IsScale := by
  have hdrawn (source : RandomSource) :
      drawFrom source start spread = clamp low high (roundToPlaces spread.precision (source.number low high)) := by
    rw [drawFrom, h]
    exact if_neg hplaces
  have haccepted : RangeAccepted start spread ↔ ValidRange low high := by
    rw [RangeAccepted, h]
    exact iff_of_eq (if_neg hplaces)
  have hfinite (source : RandomSource) (hvalid : ValidRange low high) :
      (source.number low high).isFinite = true := by
    obtain ⟨hfirst, hlast⟩ := source.number_mem _ _ hvalid
    exact Double.isFinite_of_between hvalid.low_finite hvalid.high_finite hfirst hlast
  constructor
  · intro hheld
    have hvalid := haccepted.1 (hheld .lowest).accepted
    refine ⟨hvalid, ?_⟩
    -- Without a scale the rounded draw is no number, and the bounds do not change that.
    by_contra hscale
    have hnone := @isNan_clamp low high _ (Double.isNan_mul_round_div (hfinite .lowest hvalid) hscale)
    have hdraw := (Double.atMost_iff.1 ((between_iff h _).1 (hheld .lowest).between).1).2.1
    rw [hdrawn, roundToPlaces, hnone] at hdraw
    cases hdraw
  · rintro ⟨hvalid, hscale⟩ source
    have hnumber : (roundToPlaces spread.precision (source.number low high)).isNan = false := by
      refine Double.isNan_div ?_ hscale
      rw [Double.isNan_round, Double.isNan_mul (hfinite source hvalid) hscale.finite]
    refine ⟨haccepted.2 hvalid, (between_iff h _).2 ?_⟩
    rw [hdrawn]
    exact atMost_clamp hvalid.ordered hnumber

/-- The power of ten of up to 308 places is neither infinite nor zero; places are counted with 32 bits and a sign. -/
theorem isScale_placesScale_iff (places : Nat) :
    (placesScale places).IsScale ↔ ((places : Int).bmod (2 ^ 32)).natAbs ≤ 308 := by
  unfold placesScale
  dsimp only [Nat.pow_eq]
  generalize (places : Int).bmod (2 ^ 32) = exponent
  split
  · exact Double.isScale_inverse_power_iff exponent.natAbs
  · exact Double.isScale_power_iff exponent.natAbs

/-- An integer that is an integer away has an integer at its other end. -/
theorem integer?_drawStop {m n : Int} (hstart : start.integer? = some m)
    (hmagnitude : spread.magnitude.integer? = some n) (hsize : m.natAbs + n.natAbs ≤ Double.exactLimit) :
    ∃ k, (drawStop start spread).integer? = some k ∧ k.natAbs ≤ Double.exactLimit := by
  unfold drawStop
  split
  · exact ⟨m + -n, Double.integer?_add hstart (Double.integer?_neg hmagnitude) (by omega), by omega⟩
  · exact ⟨m + n, Double.integer?_add hstart hmagnitude (by omega), by omega⟩

/-- Draws from integers are held. -/
theorem drawHeld_integers {m n : Int} (hplaces : spread.precision = 0) (hstart : start.integer? = some m)
    (hmagnitude : spread.magnitude.integer? = some n) (hsize : m.natAbs + n.natAbs ≤ Double.exactLimit)
    (source : RandomSource) : DrawHeld source start spread := by
  obtain ⟨k, hstop, hk⟩ := integer?_drawStop hstart hmagnitude hsize
  have hfirst := Double.atMost_round_of_integer? hstart (by omega)
  have hlast := Double.atMost_round_of_integer? hstop hk
  obtain ⟨low, high, h⟩ : ∃ low high, drawRange start spread = (low, high) := ⟨_, _, rfl⟩
  refine (drawHeld_integers_iff h hplaces).2 ?_ source
  rcases drawRange_cases h with ⟨-, rfl, rfl⟩ | ⟨-, rfl, rfl⟩
  · exact ⟨hfirst.1, hlast.2⟩
  · exact ⟨hlast.1, hfirst.2⟩

/-- Whatever the source answers, draws are held in exactly these cases.  Without places, rounding the ends to integers
of 64 bits must not lead out of the range, which it does not for integers up to `2 ^ 53`.  With places, the source must
accept the range, and there may be up to 308 places. -/
theorem draws_held_iff (h : drawRange start spread = (low, high)) :
    (∀ outcome, draw outcome start spread = drawFrom (.ofOutcome outcome) start spread) ∧
      ((∀ source, DrawHeld source start spread) ↔
        if spread.precision = 0 then
          low.atMost (.ofInt low.round.toInt64) ∧ (Double.ofInt high.round.toInt64).atMost high
        else ValidRange low high ∧ ((spread.precision : Int).bmod (2 ^ 32)).natAbs ≤ 308) ∧
      ∀ m n, spread.precision = 0 → start.integer? = some m → spread.magnitude.integer? = some n →
        m.natAbs + n.natAbs ≤ 2 ^ 53 → ∀ source, DrawHeld source start spread := by
  refine ⟨fun outcome => draw_eq outcome start spread, ?_, fun m n => drawHeld_integers⟩
  by_cases hplaces : spread.precision = 0
  · rw [if_pos hplaces]
    exact drawHeld_integers_iff h hplaces
  · rw [if_neg hplaces, ← isScale_placesScale_iff]
    exact drawHeld_places_iff h hplaces

end Ends

/-- Five behind ten without places, and two and a half before zero with two places. -/
theorem draws_held_at_integers_and_places :
    (∀ source, DrawHeld source 10 ⟨false, 5, 0⟩) ∧ ∀ source, DrawHeld source 0 ⟨true, 5 / 2, 2⟩ := by
  have hinteger {n : Nat} (hn : n ≤ Double.exactLimit) : (OfNat.ofNat n : Double).integer? = some n :=
    Double.integer?_literal hn
  have hintegers : drawRange 10 ⟨false, 5, 0⟩ = (10, 10 + 5) := by decide +kernel
  have hplaces : drawRange 0 ⟨true, 5 / 2, 2⟩ = (0 - 5 / 2, 0) := by decide +kernel
  refine ⟨?_, ?_⟩
  · exact (draws_held_iff hintegers).2.2 10 5 rfl (hinteger (by decide)) (hinteger (by decide)) (by decide)
  · refine (draws_held_iff hplaces).2.1.2 ?_
    rw [if_neg (by decide)]
    exact ⟨⟨by decide +kernel, by decide +kernel, by decide +kernel, by decide +kernel⟩, by decide⟩

/-- Two and a half with nothing to add. -/
def halfStart : DecimalStart :=
  { value := 5 / 2, precision := some 1, random := some ⟨false, 0, 0⟩ }

theorem readDecimal?_halfStart (delimiter : Option String) :
    readDecimal? (Segments.ofDelimiter delimiter) ['2', '.', '5', 'r', '0'] = some halfStart := by
  rw [readDecimal?, Segments.find?, pattern_decimalBody]
  decide +kernel

/-- Both ends of its range are rounded upwards, so that every source draws three. -/
theorem integer_draw_leaves_range :
    (classify (Segments.ofDelimiter none) "" "2.5r0").start = .decimal halfStart ∧
      halfStart.random = some ⟨false, 0, 0⟩ ∧ drawRange halfStart.value ⟨false, 0, 0⟩ = (5 / 2, 5 / 2) ∧
      (∀ outcome, draw outcome halfStart.value ⟨false, 0, 0⟩ = 3) ∧
      ∀ source, drawFrom source halfStart.value ⟨false, 0, 0⟩ = 3 ∧
        ¬DrawHeld source halfStart.value ⟨false, 0, 0⟩ := by
  have hline : IsFirstToken none "2.5r0" ['2', '.', '5', 'r', '0'] [] :=
    { trim_eq := by decide, isToken := isToken_of_shown (forall_of_all (by decide)) (.inl rfl) }
  have hclassify := classify_unmarked hline (forall_of_all (by decide))
    (@findMark?_of_first none _ '2' (by decide) rfl) ""
  rw [readUnmarked, if_neg (by decide), readDecimal?_halfStart] at hclassify
  have hrange : drawRange halfStart.value ⟨false, 0, 0⟩ = (5 / 2, 5 / 2) := by decide +kernel
  have hthree : (5 / 2 : Double).round.toInt64 = 3 := by decide +kernel
  have hdraw (source : RandomSource) : drawFrom source halfStart.value ⟨false, 0, 0⟩ = 3 := by
    have hinteger := source.integer_mem 3 3 (Int.le_refl _)
    rw [drawFrom, hrange]
    dsimp only
    rw [if_pos rfl, hthree, Int.le_antisymm hinteger.2 hinteger.1]
    decide +kernel
  refine ⟨by rw [hclassify], rfl, hrange, fun outcome => (draw_eq outcome ..).trans (hdraw _),
    fun source => ⟨hdraw source, fun hheld => ?_⟩⟩
  have hhigh := ((between_iff hrange _).1 hheld.between).2
  rw [hdraw] at hhigh
  exact absurd hhigh (by decide +kernel)

end SequenceNotation.Sequence
