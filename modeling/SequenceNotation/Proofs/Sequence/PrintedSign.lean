import SequenceNotation.Proofs.Notation.NumericGroups
import SequenceNotation.Proofs.Number.Order
import SequenceNotation.Proofs.Sequence.Integers

/-!
# The sign of printed numbers

A number that is printed like the start has a minus sign if it is negative and one of its digits is not zero.  In
decimal this is so for all numbers, however many places there are.  In the other radices the sign is written before
the digits are looked at, so that a negative number that is rounded to zero keeps it.
-/

namespace SequenceNotation.Sequence

open SequenceNotation.Number SequenceNotation.Script SequenceNotation.Notation SequenceNotation.Text
open SequenceNotation.Format

/-! ### Signs and digits of a text -/

/-- A text without a minus sign in front. -/
def withoutMinus : List Char → List Char
  | '-' :: rest => rest
  | text => text

def isNonzeroDigit (c : Char) : Bool :=
  (digitValue? c).any (· ≠ 0)

/-- Whether a digit other than zero stands behind the sign and the marker of the radix. -/
def showsDigit (marker text : List Char) : Bool :=
  ((withoutMinus text).drop marker.length).any isNonzeroDigit

/-- A minus sign stands in front of negative numbers that show a digit other than zero, and of no others. -/
def SignFits (marker : List Char) (value : Double) (text : List Char) : Prop :=
  text.head? = some '-' ↔ value.less 0 = true ∧ showsDigit marker text = true

theorem withoutMinus_eq {text : List Char} (h : text.head? ≠ some '-') : withoutMinus text = text := by
  unfold withoutMinus
  split
  · exact absurd rfl h
  · rfl

theorem head?_ne_minus {text : List Char} (h : ∀ c ∈ text, c ≠ '-') : text.head? ≠ some '-' :=
  fun hhead => h '-' (List.mem_of_mem_head? hhead) rfl

section Signed

variable {marker digits : List Char} {value : Double}

/-- The sign of a number fits unless the number is negative and all of its digits are zero. -/
theorem signFits_signed_iff (h : ∀ c ∈ marker ++ digits, c ≠ '-') :
    SignFits marker value (Double.signed (value.less 0) (marker ++ digits)) ↔
      (value.less 0 = true → digits.any isNonzeroDigit = true) := by
  unfold SignFits showsDigit Double.signed
  cases value.less 0 with
  | false =>
    rw [if_neg Bool.false_ne_true]
    exact iff_of_true (iff_of_false (head?_ne_minus h) fun hboth => Bool.false_ne_true hboth.1)
      fun hnegative => absurd hnegative Bool.false_ne_true
  | true =>
    rw [if_pos rfl, withoutMinus, List.drop_left]
    simp

/-- No sign fits if all digits are zero. -/
theorem signFits_of_zeros (h : ∀ c ∈ marker ++ digits, c ≠ '-') (hzero : digits.any isNonzeroDigit = false) :
    SignFits marker value (marker ++ digits) := by
  have hhead := head?_ne_minus h
  unfold SignFits showsDigit
  rw [withoutMinus_eq hhead, List.drop_left, hzero]
  exact iff_of_false hhead fun hboth => Bool.false_ne_true hboth.2

end Signed

/-! ### Digits that are not zero -/

theorem isNonzeroDigit_of_isDigit {c : Char} (h : c.isDigit = true) : isNonzeroDigit c = decide (c ≠ '0') := by
  have hzero : '0'.toNat = 48 := rfl
  have hlow : 48 ≤ c.toNat := UInt32.le_iff_toNat_le.1 (of_decide_eq_true (Bool.and_eq_true_iff.1 h).1)
  rw [isNonzeroDigit, digitValue?, if_pos h, Option.any_some, decide_eq_decide, hzero]
  refine not_congr ⟨fun hsame => Char.toNat_inj.1 (by omega), ?_⟩
  rintro rfl
  rfl

/-- Decimal digits and points are zeros and points, or one of them is a digit other than zero. -/
theorem any_isNonzeroDigit_eq {text : List Char} (h : ∀ c ∈ text, c.isDigit = true ∨ c = '.') :
    text.any isNonzeroDigit = !text.all fun c => c = '0' || c = '.' := by
  rw [Bool.eq_iff_iff, List.any_eq_true, Bool.not_eq_true', List.all_eq_false]
  refine exists_congr fun c => and_congr_right fun hc => ?_
  rcases h c hc with hdigit | rfl
  · have hpoint : c ≠ '.' := by
      rintro rfl
      cases hdigit
    rw [isNonzeroDigit_of_isDigit hdigit]
    simp [hpoint]
  · decide

/-- A numeral has a digit other than zero unless its number is zero. -/
theorem any_isNonzeroDigit_radixNumeral {radix : Nat} (hradix : 1 < radix) (hmax : radix ≤ maxRadix) (width : Nat)
    (upper : Bool) (n : Nat) : (zeroPadded width (radixNumeral radix upper n)).any isNonzeroDigit = true ↔ n ≠ 0 := by
  rw [List.any_eq_true]
  constructor
  · rintro ⟨c, hc, hdigit⟩ rfl
    have hzero : c = '0' := by
      rcases List.mem_append.1 hc with hpadding | hown
      · exact List.eq_of_mem_replicate hpadding
      · rw [radixNumeral, Nat.toDigits_of_lt_base (by omega)] at hown
        rw [List.mem_singleton.1 hown]
        cases upper <;> rfl
    rw [hzero] at hdigit
    cases hdigit
  · intro hn
    -- Without such a digit the numeral, and so the number, would be zero.
    by_contra hnone
    refine hn ?_
    rw [← numeralValue_radixNumeral hradix hmax upper n, ← numeralValue_zeroPadded radix width]
    refine numeralValue_eq_zero radix fun c hc => ?_
    obtain ⟨digit, hlt, rfl⟩ := exists_digitChar_of_mem hradix hc
    have hvalue := digitValue?_case (Nat.lt_of_lt_of_le hlt hmax) upper
    by_contra hdigit
    rw [hvalue, Option.getD_some] at hdigit
    refine hnone ⟨_, hc, ?_⟩
    rw [isNonzeroDigit, hvalue, Option.any_some]
    exact decide_eq_true hdigit

/-! ### Numbers that are rounded to zero -/

/-- Of the negative numbers those above minus one half are rounded to zero. -/
theorem toNat64_round_abs_eq_zero_iff {value : Double} (hfinite : value.isFinite = true)
    (hnegative : value.less 0 = true) : value.abs.round.toNat64 = 0 ↔ ¬value.atMost (-(1 / 2)) = true := by
  have hhalf : (-(1 / 2) : Double).rank * 2 = -Double.unitsPerOne := by decide +kernel
  have hnumber : (-(1 / 2) : Double).isNan = false := by decide +kernel
  cases value with
  | nan => cases hfinite
  | infinite negative => cases hfinite
  | finite negative units hgrid =>
    rw [Double.less_zero_finite, Bool.and_eq_true] at hnegative
    obtain ⟨rfl, -⟩ := hnegative
    -- In units: the magnitude is rounded to zero below half of a one, which the rank counts from zero downwards.
    have hcount : (Double.finite true units hgrid).abs.round.toNat64 =
        min (2 ^ 64 - 1) (roundHalfUp units Double.unitsPerOne) :=
      Double.toNat64_of_integer? (Double.integer?_round_finite false hgrid)
    have hround : roundHalfUp units Double.unitsPerOne = 0 ↔ 2 * units < Double.unitsPerOne := by
      rw [roundHalfUp, Nat.div_eq_zero_iff_lt (Nat.mul_pos Nat.two_pos unitsPerOne_pos)]
      omega
    have hrank : (Double.finite true units hgrid).rank = -(units : Int) := rfl
    have hown : (Double.finite true units hgrid).isNan = false := rfl
    rw [hcount, Double.atMost_iff, hrank]
    simp only [hnumber, hown, true_and]
    generalize (-(1 / 2) : Double).rank = half at hhalf ⊢
    generalize roundHalfUp units Double.unitsPerOne = rounded at hround ⊢
    generalize Double.unitsPerOne = one at hhalf hround
    omega

/-! ### Numbers printed like the start -/

/-- The marker in front of the digits, if it is shown. -/
def shownMarker (showRadix : Bool) (radix : Radix) : List Char :=
  if showRadix then radix.marker.toList else []

theorem ne_minus_of_isDigit_or {c : Char} (h : c.isDigit = true ∨ c = '.') : c ≠ '-' := by
  rintro rfl
  exact absurd h (by decide)

namespace NumberSequence

variable {sequence : NumberSequence} {value : Double}

/-- A finite magnitude in decimal consists of digits and a point. -/
theorem isDigit_or_of_mem_decimalText (hfinite : value.isFinite = true) :
    ∀ c ∈ sequence.decimalText value.abs, c.isDigit = true ∨ c = '.' := by
  obtain ⟨text, hdecimal, htext⟩ : ∃ text : String, DecimalText text.toList ∧
      sequence.decimalText value.abs = sequence.withLeadingZeros (splitPoint text.toList).1 ++ (splitPoint text.toList).2 := by
    cases value with
    | nan => cases hfinite
    | infinite negative => cases hfinite
    | finite negative units hgrid =>
      unfold decimalText
      cases sequence.places? with
      | some places =>
        refine ⟨_, ?_, rfl⟩
        show DecimalText (String.ofList (fixedPlaces places units)).toList
        rw [String.toList_ofList]
        exact decimalText_fixedPlaces places units
      | none =>
        refine ⟨_, ?_, rfl⟩
        show DecimalText (Double.finite false units hgrid).toText.toList
        rw [Double.toText_finite]
        exact Double.decimalText_magnitudeDigits units
  intro c hc
  rw [htext, withLeadingZeros, zeroPadded, List.append_assoc] at hc
  rcases List.mem_append.1 hc with hpadding | hown
  · rw [List.eq_of_mem_replicate hpadding]
    exact .inl rfl
  · rw [splitPoint, List.span_eq_takeWhile_dropWhile, List.takeWhile_append_dropWhile] at hown
    exact hdecimal.isDigit_or_eq c hown

/-- In decimal the sign always fits. -/
theorem signFits_decimal (hradix : sequence.start.radix = .decimal) (hfinite : value.isFinite = true) :
    SignFits (shownMarker sequence.showRadix .decimal) value (sequence.plainText value) := by
  have hmarker : shownMarker sequence.showRadix .decimal = [] := by
    unfold shownMarker
    split <;> rfl
  have hchars := @isDigit_or_of_mem_decimalText sequence value hfinite
  have hany := any_isNonzeroDigit_eq hchars
  have hminus (c : Char) (hc : c ∈ [] ++ sequence.decimalText value.abs) := ne_minus_of_isDigit_or (hchars c hc)
  unfold plainText
  dsimp only
  rw [hmarker, if_neg (not_not.2 hradix)]
  split
  · rename_i hzeros
    rw [hzeros] at hany
    exact signFits_of_zeros hminus hany
  · rename_i hzeros
    rw [Bool.eq_false_of_not_eq_true hzeros] at hany
    exact (signFits_signed_iff hminus).2 fun _ => hany

/-- In another radix it does so unless the number is between minus one half and zero. -/
theorem signFits_radix_iff (hradix : sequence.start.radix ≠ .decimal) (hfinite : value.isFinite = true) :
    SignFits (shownMarker sequence.showRadix sequence.start.radix) value (sequence.plainText value) ↔
      (value.less 0 = true → value.atMost (-(1 / 2)) = true) := by
  obtain ⟨hlow, hmax⟩ := sequence.start.radix.base_bounds
  have htext : sequence.plainText value = Double.signed (value.less 0)
      (shownMarker sequence.showRadix sequence.start.radix ++ sequence.withLeadingZeros
        (radixNumeral sequence.start.radix.base sequence.start.uppercase value.abs.round.toNat64)) := by
    unfold plainText
    dsimp only
    rw [if_pos hradix]
    rfl
  -- The minus sign in front is the only one, so it can be taken off again.
  have hminus : ∀ c ∈ shownMarker sequence.showRadix sequence.start.radix ++ sequence.withLeadingZeros
      (radixNumeral sequence.start.radix.base sequence.start.uppercase value.abs.round.toNat64), c ≠ '-' := by
    have hmarker : ∀ c ∈ shownMarker sequence.showRadix sequence.start.radix, c ≠ '-' := by
      unfold shownMarker
      cases sequence.showRadix <;> cases sequence.start.radix <;> exact forall_of_all (by decide)
    rintro c hc rfl
    rcases List.mem_append.1 hc with hfront | hdigit
    · exact hmarker _ hfront rfl
    · obtain ⟨digit, hlt, hc⟩ := exists_digitChar_of_mem hlow hdigit
      have hvalue := digitValue?_case (Nat.lt_of_lt_of_le hlt hmax) sequence.start.uppercase
      rw [← hc] at hvalue
      cases hvalue
  rw [htext, signFits_signed_iff hminus]
  refine forall_congr' fun hnegative => ?_
  rw [withLeadingZeros, any_isNonzeroDigit_radixNumeral hlow hmax, Ne, toNat64_round_abs_eq_zero_iff hfinite hnegative,
    not_not]

/-- The sign fits exactly if the radix is ten or the number is not between minus one half and zero. -/
theorem signFits_iff (hformat : sequence.format = none) (hfinite : value.isFinite = true) :
    SignFits (shownMarker sequence.showRadix sequence.start.radix) value (sequence.render value).toList ↔
      sequence.start.radix = .decimal ∨ value.less 0 = false ∨ value.atMost (-(1 / 2)) = true := by
  have hrender : (sequence.render value).toList = sequence.plainText value := by
    unfold render
    rw [hformat]
    dsimp only
    rw [if_pos hfinite, String.toList_ofList]
  rw [hrender]
  by_cases hradix : sequence.start.radix = .decimal
  · have hfits := signFits_decimal hradix hfinite
    rw [← hradix] at hfits
    exact iff_of_true hfits (.inl hradix)
  · rw [signFits_radix_iff hradix hfinite]
    cases value.less 0 <;> simp [hradix]

/-- What is inserted is the text of the number that is settled. -/
theorem exists_settled (sequence : NumberSequence) (hooks : Hooks) (state : SequenceState) (index : Nat) :
    ∃ value, (sequence.producer.emit hooks state index).value.2.values.afterExpression = .number value ∧
      (sequence.producer.emit hooks state index).value.1.text = sequence.render value :=
  ⟨_, rfl, rfl⟩

/-- Without an expression this is the number at the index. -/
theorem settled_without_expression (sequence : NumberSequence) {hooks : Hooks} (hexpression : hooks.expression = "")
    (state : SequenceState) (index : Nat) :
    (sequence.producer.emit hooks state index).value.2.values.afterExpression =
        .number (sequence.valueAt state.emitted index) ∧
      (sequence.producer.emit hooks state index).value.1.text = sequence.render (sequence.valueAt state.emitted index) := by
  have hsettle := sequence.producer.settle_without_expression hexpression (hooks.begin state.values index)
    (sequence.valueAt state.emitted index)
  constructor
  · exact congrArg Value.number hsettle
  · exact congrArg sequence.render hsettle

end NumberSequence

/-! ### Lines that start with a number -/

/-- Only a start that is a number makes a sequence of numbers. -/
theorem exists_eq_ofNumber {context : Context} {modifiers : Modifiers} {line : String} {start : Start}
    {sequence : Sequence} (h : (ofStart context modifiers line start).value = .ok sequence) {radix : Radix}
    (hkind : sequence.kind = .decimal radix) :
    ∃ start : DecimalStart, start.radix = radix ∧ sequence = ofNumber context sequence.modifiers start := by
  cases isMade_of_start h with
  | number start => exact ⟨start, SequenceKind.decimal.inj hkind, rfl⟩
  | _ => cases hkind

/-- A minus sign stands in front of exactly the emitted numbers that are negative and show a digit other than zero, in
decimal for all numbers, and in the other radices for all but those between minus one half and zero. -/
theorem minus_fits_iff {context : Context} {line : String} {sequence : Sequence}
    (h : (prepare context line).value = .ok sequence) {radix : Radix} (hkind : sequence.kind = .decimal radix)
    (hformat : numberFormat context sequence.modifiers = none) (state : SequenceState) (index : Nat) :
    ∃ value, (sequence.emit state index).value.2.values.afterExpression = .number value ∧
      (value.isFinite = true →
        (SignFits (shownMarker context.settings.radixPrefix radix) value (sequence.emit state index).value.1.text.toList ↔
          radix = .decimal ∨ value.less 0 = false ∨ value.atMost (-(1 / 2)) = true)) := by
  obtain ⟨start, rfl, hsequence⟩ := exists_eq_ofNumber h hkind
  rw [hsequence]
  generalize sequence.modifiers = modifiers at hformat
  let numbers : NumberSequence :=
    { start, folding := modifiers.folding, format := numberFormat context modifiers,
      showRadix := context.settings.radixPrefix, seed := context.seed }
  obtain ⟨value, hvalue, htext⟩ := numbers.exists_settled (context.hooks modifiers) state index
  refine ⟨value, hvalue, fun hfinite => ?_⟩
  have hfits := @NumberSequence.signFits_iff numbers value hformat hfinite
  rwa [← htext] at hfits

/-! ### Steps of a quarter -/

/-- A quarter backwards at each index, and no formats. -/
def quartersBack : Context :=
  { plainContext with settings := { step := -(1 / 4) }, segments := Segments.ofDelimiter none }

/-- Zero in hexadecimal. -/
def hexZero : DecimalStart :=
  { radix := .hex, value := 0 }

def quarters : NumberSequence where
  start := hexZero
  folding := { step := -(1 / 4) }
  format := none
  showRadix := false
  seed := 0

def quartersSequence : Sequence :=
  ofNumber quartersBack (Modifiers.ofSettings quartersBack.settings) hexZero

theorem prepare_quartersBack : (prepare quartersBack "0x0").value = .ok quartersSequence := by
  have hline : IsFirstToken none "0x0" ['0', 'x', '0'] [] :=
    { trim_eq := by decide, isToken := isToken_of_shown (forall_of_all (by decide)) (.inl rfl) }
  have hread : readDecimal? (Segments.ofDelimiter none) ['0', 'x', '0'] = some hexZero := by
    rw [readDecimal?, Segments.find?, pattern_decimalBody]
    decide +kernel
  have hclassify := classify_unmarked hline (forall_of_all (by decide))
    (@findMark?_of_first none _ '0' (by decide) rfl) quartersBack.settings.start
  rw [readUnmarked, if_neg (by decide), hread] at hclassify
  have hsegments : quartersBack.segments = Segments.ofDelimiter none := rfl
  simp only [prepare, Logged.value_bind, hsegments, hclassify, extract_nil]
  rfl

theorem emit_quarters (index : Nat) :
    (quartersSequence.emit quartersSequence.initial index).value.2.values.afterExpression =
        .number (quarters.valueAt 0 index) ∧
      (quartersSequence.emit quartersSequence.initial index).value.1.text = quarters.render (quarters.valueAt 0 index) := by
  have hexpression : quartersSequence.hooks.expression = "" := by decide
  exact quarters.settled_without_expression hexpression quartersSequence.initial index

/-- Minus one half is rounded to minus one, and its sign fits. -/
theorem minus_fits_at_one_half :
    ∃ value, (prepare quartersBack "0x0").value = .ok quartersSequence ∧ quartersSequence.kind = .decimal .hex ∧
      numberFormat quartersBack quartersSequence.modifiers = none ∧
      (quartersSequence.emit quartersSequence.initial 2).value.2.values.afterExpression = .number value ∧
      value.isFinite = true ∧ (quartersSequence.emit quartersSequence.initial 2).value.1.text = "-1" ∧
      SignFits (shownMarker quartersBack.settings.radixPrefix .hex) value ['-', '1'] := by
  have hformat : numberFormat quartersBack quartersSequence.modifiers = none := by decide
  obtain ⟨value, hvalue, hfits⟩ :=
    minus_fits_iff prepare_quartersBack rfl hformat quartersSequence.initial 2
  obtain ⟨hown, htext⟩ := emit_quarters 2
  have hfinite : (quarters.valueAt 0 2).isFinite = true := by decide +kernel
  have hlow : (quarters.valueAt 0 2).atMost (-(1 / 2)) = true := by decide +kernel
  have hwritten : quarters.render (quarters.valueAt 0 2) = "-1" := by decide +kernel
  rw [hown] at hvalue
  rw [Value.number.inj hvalue] at hfinite hlow
  rw [htext, hwritten] at hfits
  exact ⟨value, prepare_quartersBack, rfl, hformat, hown.trans hvalue, hfinite, htext.trans hwritten,
    (hfits hfinite).2 (.inr (.inr hlow))⟩

/-- Minus a quarter is rounded to zero and keeps its sign. -/
theorem zero_digits_keep_minus :
    ∃ sequence value, (prepare quartersBack "0x0").value = .ok sequence ∧ sequence.kind = .decimal .hex ∧
      numberFormat quartersBack sequence.modifiers = none ∧
      (sequence.emit sequence.initial 1).value.2.values.afterExpression = .number value ∧ value.isFinite = true ∧
      (sequence.emit sequence.initial 1).value.1.text = "-0" ∧
      ¬SignFits (shownMarker quartersBack.settings.radixPrefix .hex) value ['-', '0'] := by
  obtain ⟨hown, htext⟩ := emit_quarters 1
  have hwritten : quarters.render (quarters.valueAt 0 1) = "-0" := by decide +kernel
  refine ⟨quartersSequence, _, prepare_quartersBack, rfl, by decide, hown, by decide +kernel, htext.trans hwritten, ?_⟩
  intro hfits
  have hdigits : showsDigit [] ['-', '0'] = false := by decide
  exact Bool.false_ne_true (hdigits.symm.trans (hfits.1 rfl).2)

end SequenceNotation.Sequence
