import SequenceNotation.Proofs.Notation.IntegerLiteral
import SequenceNotation.Proofs.Sequence.FailingExpression
import SequenceNotation.Proofs.Sequence.Folding

/-!
# Sequences of integers

A sequence that starts with an integer and goes on by whole steps prints each of its integers in the manner of the
start: in its radix, with the sign of the integer and with zeros in front if the start has them.  What is printed reads
back as the integer, as long as it is in the range in which all integers are doubles.
-/

namespace SequenceNotation.Sequence

open SequenceNotation.Number SequenceNotation.Notation SequenceNotation.Text SequenceNotation.Format

/-! ### Integers in the manner of a literal -/

/-- The text of an integer with some digits: a minus sign in front if it is negative, and the marker of the radix if
it is shown. -/
def integerText (radix : Radix) (showRadix : Bool) (value : Int) (digits : List Char) : List Char :=
  (if value < 0 then ['-'] else []) ++ ((if showRadix then radix.marker.toList else []) ++ digits)

/-- Digits of a number in the manner of a literal: they read back, are as many as those of a literal that begins with
a zero, and have letters of one case. -/
structure DigitsLike (literal : IntegerLiteral) (n : Nat) (digits : List Char) : Prop where
  reads : readRadix? literal.radix.base digits = some n
  width : literal.digits.head? = some '0' → literal.digits.length ≤ digits.length
  letterCase : (∀ c ∈ digits, c.isUpper = false) ∨ ∀ c ∈ digits, c.isLower = false

/-- The digits that a start asks for. -/
def startDigits (start : DecimalStart) (n : Nat) : List Char :=
  zeroPadded (start.leadWidth.getD 0) (radixNumeral start.radix.base start.uppercase n)

section Digits

variable {literal : IntegerLiteral} {start : DecimalStart}

theorem digitsLike_startDigits (h : IsIntegerStart literal start) (n : Nat) :
    DigitsLike literal n (startDigits start n) := by
  obtain ⟨hradix, hmax⟩ := literal.radix.base_bounds
  unfold startDigits
  rw [h.radix]
  refine ⟨readRadix?_zeroPadded hradix hmax _ _ n, fun hzero => ?_, ?_⟩
  · -- a leading zero of the start asks for its width
    have hlength : 0 < (radixNumeral literal.radix.base start.uppercase n).length := by
      rw [radixNumeral, List.length_map]
      exact Nat.length_toDigits_pos
    rw [length_zeroPadded, h.leadWidth]
    split
    · exact Nat.le_max_left _ _
    · rename_i hsingle
      have hle : literal.digits.length ≤ 1 := Nat.le_of_not_lt fun hlt => hsingle ⟨hlt, hzero⟩
      omega
  · have hcase := case_zeroPadded hradix hmax (start.leadWidth.getD 0) start.uppercase n
    cases hupper : start.uppercase with
    | false =>
      rw [hupper] at hcase
      exact .inl hcase
    | true =>
      rw [hupper] at hcase
      exact .inr hcase

/-- The digits of the start itself come back up to letter case. -/
theorem map_toLower_startDigits (h : IsIntegerStart literal start) :
    (startDigits start literal.magnitude).map Char.toLower = literal.digits.map Char.toLower := by
  obtain ⟨hradix, hmax⟩ := literal.radix.base_bounds
  unfold startDigits
  rw [h.radix, map_toLower_zeroPadded hradix hmax, h.leadWidth]
  split
  · exact zeroPadded_toDigits hradix hmax literal.digits_ne_nil literal.digits_of_radix
  · rename_i hplain
    have hown := toDigits_numeralValue hradix hmax literal.digits_ne_nil literal.digits_of_radix hplain
    unfold IntegerLiteral.magnitude
    rw [hown]
    exact zeroPadded_of_le (Nat.zero_le _)

/-- Only zero is written with zeros alone. -/
theorem eq_zero_of_startDigits (h : IsIntegerStart literal start) {n : Nat}
    (hall : ∀ c ∈ startDigits start n, (digitValue? c).getD 0 = 0) : n = 0 := by
  obtain ⟨hradix, hmax⟩ := literal.radix.base_bounds
  have hvalue := numeralValue_eq_zero start.radix.base hall
  rw [startDigits, numeralValue_zeroPadded, h.radix] at hvalue
  exact (numeralValue_radixNumeral hradix hmax _ n).symm.trans hvalue

end Digits

/-- Without an expression the own value is written. -/
theorem Producer.text_emit {α : Type} (producer : Producer α) {hooks : Hooks} (hexpression : hooks.expression = "")
    {state : SequenceState} {index : Nat} {own : Logged α}
    (hown : producer.own? state.emitted index (hooks.begin state.values index) = some own) :
    (producer.emit hooks state index).value.1.text = producer.text own.value := by
  dsimp only [emit]
  rw [hown]
  dsimp only
  rw [Logged.value_bind, Logged.value_bind, producer.settle_without_expression hexpression]
  rfl

namespace NumberSequence

variable {sequence : NumberSequence} {literal : IntegerLiteral} {value : Double} {n : Int}

/-- A whole magnitude in a radix. -/
theorem radixText_integer (hstart : IsIntegerStart literal sequence.start) {n : Nat}
    (hvalue : value.integer? = some (n : Int)) (hn : n ≤ Double.exactLimit) :
    sequence.radixText value =
      (if sequence.showRadix then literal.radix.marker.toList else []) ++ startDigits sequence.start n := by
  have hcount : value.round.toNat64 = n := by
    rw [Double.toNat64_of_integer? (Double.integer?_round hvalue)]
    have hlimit : Double.exactLimit = 9007199254740992 := by decide
    omega
  unfold radixText withLeadingZeros startDigits
  dsimp only
  rw [hcount, hstart.radix]

/-- A whole magnitude in decimal has neither a point nor places behind it. -/
theorem decimalText_integer (hstart : IsIntegerStart literal sequence.start) (hradix : literal.radix = .decimal)
    {n : Nat} (hvalue : value.integer? = some (n : Int)) (hn : n ≤ Double.exactLimit) :
    sequence.decimalText value = startDigits sequence.start n := by
  have hplaces : sequence.places? = none := by
    unfold places?
    rw [hstart.random, hstart.precision]
  have htext := Double.toText_of_integer? hvalue (Nat.lt_of_le_of_lt hn (by decide))
  have hsplit : splitPoint (decimalDigits n) = (decimalDigits n, []) := by
    have hnone : ∀ c ∈ decimalDigits n, decide (c ≠ '.') = true := by
      intro c hc
      refine decide_eq_true ?_
      rintro rfl
      exact absurd (isDigit_decimalDigits hc) (by decide)
    unfold splitPoint
    rw [List.span_eq_takeWhile_dropWhile, List.takeWhile_eq_self_iff.2 hnone, List.dropWhile_eq_nil_iff.2 hnone]
  have hdigits : radixNumeral sequence.start.radix.base sequence.start.uppercase n = decimalDigits n := by
    rw [radixNumeral, hstart.radix, hradix, hstart.uppercase hradix]
    exact List.map_id _
  unfold decimalText withLeadingZeros startDigits
  rw [hplaces]
  dsimp only
  rw [htext, hsplit, hdigits]
  exact List.append_nil _

/-- An integer is printed with the digits that the start asks for. -/
theorem plainText_integer (hstart : IsIntegerStart literal sequence.start) (hvalue : value.integer? = some n)
    (hn : n.natAbs ≤ Double.exactLimit) :
    sequence.plainText value =
      integerText literal.radix sequence.showRadix n (startDigits sequence.start n.natAbs) := by
  have habs := Double.integer?_abs hvalue
  have hsign (text : List Char) :
      (if value.less 0 then '-' :: text else text) = (if n < 0 then ['-'] else []) ++ text := by
    rw [Double.less_zero_of_integer? hvalue]
    by_cases hneg : n < 0 <;> simp [hneg]
  unfold plainText integerText
  dsimp only
  rw [hstart.radix]
  by_cases hradix : literal.radix = .decimal
  · rw [if_neg (not_not.2 hradix), decimalText_integer hstart hradix habs hn]
    have hmarker : (if sequence.showRadix then literal.radix.marker.toList else []) = [] := by
      rw [hradix]
      split <;> rfl
    rw [hmarker, List.nil_append]
    split
    · -- only zero is printed in nothing but zeros, and it has no sign in either form
      rename_i hall
      have hzeros : ∀ c ∈ startDigits sequence.start n.natAbs, (digitValue? c).getD 0 = 0 := by
        intro c hc
        have hown : c = '0' ∨ c = '.' := by simpa using List.all_eq_true.1 hall c hc
        rcases hown with rfl | rfl <;> rfl
      obtain rfl : n = 0 := Int.natAbs_eq_zero.1 (eq_zero_of_startDigits hstart hzeros)
      rfl
    · exact hsign _
  · rw [if_pos hradix, radixText_integer hstart habs hn]
    exact hsign _

/-- Without a format an integer is printed like the start. -/
theorem render_integer (hstart : IsIntegerStart literal sequence.start) (hformat : sequence.format = none)
    (hvalue : value.integer? = some n) (hn : n.natAbs ≤ Double.exactLimit) :
    sequence.render value =
      String.ofList (integerText literal.radix sequence.showRadix n (startDigits sequence.start n.natAbs)) := by
  have hfinite : value.isFinite = true := by
    obtain ⟨negative, k, hgrid, rfl, -⟩ := Double.exists_finite_of_integer? hvalue
    rfl
  unfold render
  rw [hformat]
  dsimp only
  rw [if_pos hfinite, plainText_integer hstart hvalue hn]

/-- The number at an index is the start and so many steps. -/
theorem integer?_valueAt (hstart : IsIntegerStart literal sequence.start) {step : Int} {index : Nat}
    (hstep : sequence.folding.step.integer? = some step) (hindex : index < 2 ^ 64)
    (hdistance : (step * sequence.folding.fold index).natAbs ≤ Double.exactLimit)
    (hsum : (literal.value + step * sequence.folding.fold index).natAbs ≤ Double.exactLimit) (emitted : Nat) :
    (sequence.valueAt emitted index).integer? = some (literal.value + step * sequence.folding.fold index) := by
  unfold valueAt
  rw [hstart.random]
  exact Double.integer?_add hstart.value (Folding.integer?_logicalIndex hstep hindex hdistance) hsum

/-- Without a format and an expression the text at an index is the integer that lies so many steps behind the start. -/
theorem text_emit_integer (hstart : IsIntegerStart literal sequence.start) (hformat : sequence.format = none)
    {hooks : Hooks} (hexpression : hooks.expression = "") {step : Int} {index : Nat}
    (hstep : sequence.folding.step.integer? = some step) (hindex : index < 2 ^ 64)
    (hdistance : (step * sequence.folding.fold index).natAbs ≤ Double.exactLimit)
    (hsum : (literal.value + step * sequence.folding.fold index).natAbs ≤ Double.exactLimit) (state : SequenceState) :
    (sequence.producer.emit hooks state index).value.1.text =
      String.ofList (integerText literal.radix sequence.showRadix (literal.value + step * sequence.folding.fold index)
        (startDigits sequence.start (literal.value + step * sequence.folding.fold index).natAbs)) := by
  have hvalue := integer?_valueAt hstart hstep hindex hdistance hsum state.emitted
  have hrender := render_integer hstart hformat hvalue hsum
  exact (sequence.producer.text_emit hexpression rfl).trans hrender

end NumberSequence

/-! ### Lines that start with an integer -/

/-- A line that starts with an integer makes a sequence of numbers of its radix.  Without a format and an expression
each text of it is the integer that lies so many steps behind the start, in digits like those of the start; in front of
the first step they are the same digits. -/
theorem emit_integer {context : Context} {delimiter : Option String}
    (hsegments : context.segments = Segments.ofDelimiter delimiter) {literal : IntegerLiteral} {line : String}
    {rest : List Char} (hline : StartsWith delimiter context.settings.start line literal rest)
    (hstart : literal.value.natAbs < 2 ^ 53) :
    ∃ sequence, (prepare context line).value = .ok sequence ∧ sequence.kind = .decimal literal.radix ∧
      sequence.modifiers = (Modifiers.extract context.segments context.settings (String.ofList rest)).value ∧
      (trimmed sequence.modifiers.expression = "" → numberFormat context sequence.modifiers = none →
        ∀ (step : Int) (index : Nat), sequence.modifiers.step.integer? = some step → index < 2 ^ 64 →
          (step * sequence.modifiers.folding.fold index).natAbs < 2 ^ 53 →
          (literal.value + step * sequence.modifiers.folding.fold index).natAbs < 2 ^ 53 →
          ∀ state, ∃ digits,
            (sequence.emit state index).value.1.text =
              String.ofList (integerText literal.radix context.settings.radixPrefix
                (literal.value + step * sequence.modifiers.folding.fold index) digits) ∧
            DigitsLike literal (literal.value + step * sequence.modifiers.folding.fold index).natAbs digits ∧
            (sequence.modifiers.folding.fold index = 0 →
              digits.map Char.toLower = literal.digits.map Char.toLower)) := by
  have hsize : literal.magnitude ≤ Double.exactLimit := by
    rw [← literal.natAbs_value]
    exact Nat.le_of_lt hstart
  obtain ⟨start, hclassify, hinteger⟩ := hline.exists_integerStart hsize
  rw [← hsegments] at hclassify
  have hprepare : (prepare context line).value =
      .ok (ofNumber context (Modifiers.extract context.segments context.settings (String.ofList rest)).value start) := by
    simp only [prepare, Logged.value_bind, hclassify]
    rfl
  generalize (Modifiers.extract context.segments context.settings (String.ofList rest)).value = modifiers at hprepare ⊢
  refine ⟨_, hprepare, congrArg SequenceKind.decimal hinteger.radix, rfl, ?_⟩
  intro hexpression hformat step index hstep hindex hdistance hsum state
  let sequence : NumberSequence :=
    { start, folding := modifiers.folding, format := numberFormat context modifiers,
      showRadix := context.settings.radixPrefix, seed := context.seed }
  have htext := @NumberSequence.text_emit_integer sequence literal hinteger hformat (context.hooks modifiers) hexpression
    step index hstep hindex (Nat.le_of_lt hdistance) (Nat.le_of_lt hsum) state
  refine ⟨_, htext, digitsLike_startDigits hinteger _, fun hfold => ?_⟩
  rw [show sequence.folding.fold index = 0 from hfold, Int.natCast_zero, Int.mul_zero, Int.add_zero,
    literal.natAbs_value]
  exact map_toLower_startDigits hinteger

/-- Without a text behind the start only the settings count. -/
theorem extract_nil (delimiter : Option String) (settings : Settings) :
    (Modifiers.extract (Segments.ofDelimiter delimiter) settings (String.ofList [])).value =
      Modifiers.ofSettings settings := by
  have hwritten : writtenModifiers (Segments.ofDelimiter delimiter) (mask []) [] = ([], []) :=
    writtenModifiers_of_noKey (NoKeyIn.nil [])
  have hbare (modifiers : Modifiers) :
      modifiers.applyBareStep (Segments.ofDelimiter delimiter) [] [] = pure modifiers :=
    rfl
  rw [Modifiers.extract, String.toList_ofList, hwritten]
  simp only [Logged.value_bind, Modifiers.applyAll, hbare, Logged.value_pure]

/-- A negative hexadecimal with a zero in front and capital letters. -/
def paddedHex : IntegerLiteral where
  sign := some '-'
  radix := .hex
  marker := ['0', 'x']
  digits := ['0', 'F', 'E']
  sign_mem := by simp
  marker_mem := by decide
  digits_ne_nil := by decide
  digits_of_radix := forall_of_all (by decide)

/-- No delimiter and no formats, and markers in front of digits. -/
def markedContext : Context :=
  { plainContext with settings := { radixPrefix := true }, segments := Segments.ofDelimiter none }

/-- The start is printed as it is, and behind zero there is no sign. -/
theorem emit_integer_through_zero :
    ∃ sequence, (prepare markedContext "-0x0FE").value = .ok sequence ∧
      (∃ digits, (sequence.emit sequence.initial 0).value.1.text = String.ofList (['-', '0', 'x'] ++ digits) ∧
        readRadix? 16 digits = some 254 ∧ digits.map Char.toLower = ['0', 'f', 'e']) ∧
      ∃ digits, (sequence.emit sequence.initial 255).value.1.text = String.ofList (['0', 'x'] ++ digits) ∧
        readRadix? 16 digits = some 1 ∧ 3 ≤ digits.length := by
  have hline : StartsWith none markedContext.settings.start "-0x0FE" paddedHex [] :=
    .written { trim_eq := by decide, isToken := isToken_of_shown (forall_of_all (by decide)) (.inl rfl) }
  obtain ⟨sequence, hprepare, -, hmodifiers, hemit⟩ := @emit_integer markedContext none rfl paddedHex _ _ hline (by decide)
  have hplain : sequence.modifiers = Modifiers.ofSettings markedContext.settings :=
    hmodifiers.trans (extract_nil none markedContext.settings)
  rw [hplain] at hemit
  have hstep : (Modifiers.ofSettings markedContext.settings).step.integer? = some 1 :=
    Double.integer?_literal (show 1 ≤ Double.exactLimit by decide)
  have htexts := hemit (by decide) (by decide) 1
  obtain ⟨digits, htext, hlike, hsame⟩ := htexts 0 hstep (by decide) (by decide) (by decide) sequence.initial
  obtain ⟨digits', htext', hlike', -⟩ := htexts 255 hstep (by decide) (by decide) (by decide) sequence.initial
  exact ⟨sequence, hprepare, ⟨digits, htext, hlike.reads, hsame (by decide)⟩, digits', htext', hlike'.reads,
    hlike'.width (by decide)⟩

end SequenceNotation.Sequence
