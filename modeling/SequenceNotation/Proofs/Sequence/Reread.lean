import SequenceNotation.Proofs.Calendar.RoundTrip
import SequenceNotation.Proofs.Sequence.Consultation
import SequenceNotation.Proofs.Sequence.LiteralValue

/-!
# Own values read from their literals

A kind that takes the value of its own literal takes the own value again, with some exceptions.  A zero loses its
sign, and a date its time of the day.  A text that reads as a number becomes this number, whose text is the plain
one.  What is settled has the same literal in any case.
-/

namespace SequenceNotation

open SequenceNotation.Number SequenceNotation.Script SequenceNotation.Notation SequenceNotation.Calendar
open SequenceNotation.Text SequenceNotation.Format

/-! ### Dates in expressions -/

namespace Sequence

theorem isoText_eq (moment : DateTime) :
    isoText moment = String.ofList (dateText moment.date.year moment.date.month moment.date.day) := by
  have htemplate : isoTemplate.toList = ['y', 'y', 'y', 'y', '-', 'M', 'M', '-', 'd', 'd'] := rfl
  have hyear (rest : List Char) : dateTokenAt? ('y' :: 'y' :: 'y' :: 'y' :: rest) = some (4, .year) := rfl
  have hmonth (rest : List Char) : dateTokenAt? ('M' :: 'M' :: '-' :: rest) = some (2, .paddedMonth) := rfl
  have hday (rest : List Char) : dateTokenAt? ('d' :: 'd' :: rest) = some (2, .paddedDay) := rfl
  have hmark (rest : List Char) : dateTokenAt? ('-' :: rest) = none := rfl
  refine congrArg String.ofList ?_
  calc renderTemplate moment "en" isoTemplate.toList
      = yearText moment.date.year ++ renderTemplate moment "en" ['-', 'M', 'M', '-', 'd', 'd'] :=
        htemplate ▸ renderTemplate_token (hyear _)
    _ = yearText moment.date.year ++ '-' :: (paddedNumber 2 moment.date.month ++
          renderTemplate moment "en" ['-', 'd', 'd']) := by
        rw [renderTemplate_mark (hmark _), renderTemplate_token (hmonth _)]
        rfl
    _ = yearText moment.date.year ++ '-' :: (paddedNumber 2 moment.date.month ++
          '-' :: (paddedNumber 2 moment.date.day ++ renderTemplate moment "en" [])) := by
        rw [renderTemplate_mark (hmark _), renderTemplate_token (hday _)]
        rfl
    _ = dateText moment.date.year moment.date.month moment.date.day := by
        rw [renderTemplate, List.append_nil]
        rfl

/-- Read as a date, the text is midnight of the same day. -/
theorem readDate?_isoText (moment : DateTime) :
    readDate? (isoText moment) = if moment.date.year ≤ 9999 then some { date := moment.date } else none := by
  rw [isoText_eq, readDate?_dateText]

theorem numeric?_isoText (moment : DateTime) : (Value.text (isoText moment)).numeric? = none := by
  have hread : Value.readNumber? (isoText moment) = none := by
    -- behind the digits of the year comes a minus sign, with which no exponent begins
    generalize htail : paddedNumber 2 moment.date.month ++ '-' :: paddedNumber 2 moment.date.day = tail
    obtain ⟨d, rest, hdigits, hd⟩ := @exists_paddedNumber (if moment.date.year < 0 then 3 else 4)
      (by split <;> decide) moment.date.year.natAbs
    have htext : dateText moment.date.year moment.date.month moment.date.day =
        Double.signed (moment.date.year < 0) (d :: (rest ++ '-' :: tail)) := by
      rw [dateText, yearText_eq, htail, hdigits, Double.signed, Double.signed]
      split <;> rfl
    unfold Value.readNumber?
    rw [isoText_eq, String.toList_ofList, trim_of_forall (isBlank_of_mem_dateText _ _ _), htext,
      readDouble_signed ⟨d, _, rfl, hd⟩, ← List.cons_append, ← hdigits, readUnsigned_minus _ isDigit_paddedNumber]
  exact congrArg (Option.filter Double.isFinite) hread

/-! ### Values read again -/

theorem SameLiteral.symm {value other : Value} (h : SameLiteral value other) : SameLiteral other value :=
  fun memberFollows => (h memberFollows).symm

theorem SameLiteral.trans {value other another : Value} (h : SameLiteral value other)
    (h' : SameLiteral other another) : SameLiteral value another :=
  fun memberFollows => (h memberFollows).trans (h' memberFollows)

theorem isFinite_of_numeric? {value : Value} {n : Double} (h : value.numeric? = some n) : n.isFinite = true := by
  cases value with
  | number m =>
    dsimp only [Value.numeric?] at h
    split at h
    · rename_i hfinite
      cases h
      exact hfinite
    · cases h
  | text text => exact (Option.filter_eq_some_iff.1 h).2
  | _ => cases h

theorem isBlank_toText {n : Double} (h : n.isFinite = true) : ∀ c ∈ n.toText.toList, isBlank c = false := by
  cases n with
  | finite negative units hgrid =>
    have hdigits : ∀ c ∈ Double.magnitudeDigits units, isBlank c = false := by
      intro c hc
      rcases (Double.decimalText_magnitudeDigits units).isDigit_or_eq c hc with hdigit | rfl
      · exact isBlank_of_isDigit hdigit
      · decide
    rw [Double.toText_finite, Double.signed]
    split
    · exact List.forall_mem_cons.2 ⟨by decide, hdigits⟩
    · exact hdigits
  | _ => cases h

/-- The text of a finite number reads as this number. -/
theorem numeric?_toText {n : Double} (h : n.isFinite = true) :
    (Value.text n.toText).numeric? = some n.unsignedZero := by
  have hread : Value.readNumber? n.toText = some n.unsignedZero := by
    unfold Value.readNumber?
    rw [trim_of_forall (isBlank_toText h), Double.readDouble_toText h]
  show (Value.readNumber? n.toText).filter Double.isFinite = some n.unsignedZero
  rw [hread, Option.filter_eq_some_iff]
  exact ⟨rfl, n.isFinite_unsignedZero.trans h⟩

theorem sameLiteral_unsignedZero (n : Double) : SameLiteral (.number n.unsignedZero) (.number n) := by
  cases hnan : n.isNan with
  | false => exact SameLiteral.of_strictEqual (Double.equal_unsignedZero hnan)
  | true =>
    cases n with
    | nan => exact SameLiteral.refl _
    | _ => cases hnan

/-- A text that reads as a number has the literal of the number. -/
theorem sameLiteral_of_numeric? {text : String} {n : Double} (h : (Value.text text).numeric? = some n) :
    SameLiteral (.text text) (.number n) := by
  intro memberFollows
  unfold literalOf
  dsimp only
  rw [h]

theorem sameLiteral_toText {n : Double} (h : n.isFinite = true) : SameLiteral (.text n.toText) (.number n) :=
  (sameLiteral_of_numeric? (numeric?_toText h)).trans (sameLiteral_unsignedZero n)

theorem reread_text_none {text : String} (h : (Value.text text).numeric? = none) :
    reread (.text text) = .text text := by
  unfold reread
  dsimp only
  rw [h]
  rfl

theorem reread_text_some {text : String} {n : Double} (h : (Value.text text).numeric? = some n) :
    reread (.text text) = .number n.unsignedZero := by
  unfold reread
  dsimp only
  rw [h]

/-- What the literal of a value is read as has this literal. -/
theorem sameLiteral_reread (value : Value) : SameLiteral (reread value) value := by
  cases value with
  | number n => exact sameLiteral_unsignedZero n
  | text text =>
    cases h : (Value.text text).numeric? with
    | none =>
      rw [reread_text_none h]
      exact SameLiteral.refl _
    | some n =>
      rw [reread_text_some h]
      exact (sameLiteral_unsignedZero n).trans (sameLiteral_of_numeric? h).symm
  | undefined => exact literalOf_text (by decide)
  | null => exact literalOf_text (by decide)
  | boolean value =>
    cases value with
    | false => exact literalOf_text (by decide)
    | true => exact literalOf_text (by decide)
  | function =>
    have hname : (Value.text "function").numeric? = none := by decide
    exact literalOf_text hname

/-! ### What the kinds take -/

/-- The value that the literal of the own value selects. -/
def Producer.fromLiteral {α : Type} (producer : Producer α) (own : α) : α :=
  (producer.select own (reread (producer.shown own))).value

/-- The text of what the literal of the own value selects; none without a value. -/
def Producer.rereadText? {α : Type} (producer : Producer α) (emitted index : Nat) (values : PlaceholderValues) :
    Option String :=
  (producer.own? emitted index values).map fun own => producer.text (producer.fromLiteral own.value)

def Generator.rereadText? (generator : Generator) (budget : Budget) (emitted index : Nat)
    (values : PlaceholderValues) : Option String :=
  (generator.producer? budget).bind fun made => made.2.rereadText? emitted index values

theorem NumberSequence.fromLiteral_eq (sequence : NumberSequence) (own : Double) :
    sequence.producer.fromLiteral own = own.unsignedZero := by
  cases own <;> rfl

theorem WordSequence.fromLiteral_eq (sequence : WordSequence) (own : String) :
    sequence.producer.fromLiteral own = own := by
  show (sequence.producer.select own (reread (.text own))).value = own
  cases h : (Value.text own).numeric? with
  | none =>
    rw [reread_text_none h]
    rfl
  | some n =>
    -- a number is not taken
    rw [reread_text_some h]
    rfl

/-- The text of a date selects midnight of this date, and the own date stays for one that is not read. -/
theorem DateSequence.select_isoText (own moment : DateTime) :
    (DateSequence.select own (.text (isoText moment))).value =
      if moment.date.year ≤ 9999 then { date := moment.date } else own := by
  unfold select
  dsimp only
  rw [readDate?_isoText]
  by_cases h : moment.date.year ≤ 9999
  · rw [if_pos h, if_pos h]
    rfl
  · rw [if_neg h, if_neg h]
    rfl

theorem DateSequence.fromLiteral_eq (sequence : DateSequence) (own : DateTime) :
    sequence.producer.fromLiteral own = if own.date.year ≤ 9999 then { date := own.date } else own := by
  show (DateSequence.select own (reread (.text (isoText own)))).value = _
  rw [reread_text_none (numeric?_isoText own), select_isoText]

theorem textOfResult_reread (text : String) :
    textOfResult text (reread (.text text)) = ((Value.text text).numeric?.map Double.toText).getD text := by
  cases h : (Value.text text).numeric? with
  | none =>
    rw [reread_text_none h]
    rfl
  | some n =>
    rw [reread_text_some h]
    exact n.toText_unsignedZero

theorem definedResult_reread (own : Value) : definedResult own (reread own) = reread own := by
  have hdefined : (reread own).isUndefined = false := by
    unfold reread
    split
    · rfl
    · split <;> rfl
  unfold definedResult
  rw [hdefined]
  rfl

theorem ItemSequence.fromLiteral_eq (sequence : ItemSequence) (own : String) :
    sequence.producer.fromLiteral own = textOfResult own (reread (.text own)) := by
  simp only [Producer.fromLiteral, ItemSequence.producer, Logged.value_pure]

theorem SelectedText.fromLiteral_eq (sequence : SelectedText) (own : String) :
    sequence.producer.fromLiteral own = textOfResult own (reread (.text own)) := by
  simp only [Producer.fromLiteral, SelectedText.producer, Logged.value_pure]

theorem ExpressionSequence.fromLiteral_eq (sequence : ExpressionSequence) (budget : Budget) (own : Value) :
    (sequence.producer budget).fromLiteral own = reread own := by
  simp only [Producer.fromLiteral, ExpressionSequence.producer, Logged.value_pure, id_eq, definedResult_reread]

theorem FunctionSequence.fromLiteral_eq (sequence : FunctionSequence) (budget : Budget) (own : Value) :
    (sequence.producer budget).fromLiteral own = reread own := by
  simp only [Producer.fromLiteral, FunctionSequence.producer, Logged.value_pure, id_eq, definedResult_reread]

/-- Whatever a kind takes, what it settles has the same literal. -/
theorem Generator.sameLiteral_fromLiteral {generator : Generator} {budget : Budget} {made : Σ α : Type, Producer α}
    (h : generator.producer? budget = some made) (own : made.1) :
    SameLiteral (made.2.settled (made.2.fromLiteral own)) (made.2.settled own) := by
  have htext (text : String) : SameLiteral (.text (textOfResult text (reread (.text text)))) (.text text) := by
    rw [textOfResult_reread]
    -- a text that reads as a number and the text of this number share the literal of the number
    cases hnumeric : (Value.text text).numeric? with
    | none => exact SameLiteral.refl _
    | some n => exact (sameLiteral_toText (isFinite_of_numeric? hnumeric)).trans (sameLiteral_of_numeric? hnumeric).symm
  cases generator with
  | number sequence =>
    cases h
    rw [sequence.fromLiteral_eq]
    exact sameLiteral_unsignedZero own
  | word sequence =>
    cases h
    rw [sequence.fromLiteral_eq]
    exact SameLiteral.refl _
  | date sequence =>
    cases h
    rw [sequence.fromLiteral_eq]
    split
    · show SameLiteral (.text (isoText { date := own.date })) (.text (isoText own))
      rw [isoText_eq, isoText_eq]
      exact SameLiteral.refl _
    · exact SameLiteral.refl _
  | items sequence =>
    cases h
    rw [sequence.fromLiteral_eq]
    exact htext own
  | selected sequence =>
    cases h
    rw [sequence.fromLiteral_eq]
    exact htext own
  | expression sequence =>
    cases h
    rw [sequence.fromLiteral_eq]
    exact sameLiteral_reread own
  | function sequence =>
    cases h
    rw [sequence.fromLiteral_eq]
    exact sameLiteral_reread own
  | nothing => cases h

/-! ### Texts that stay -/

/-- Whether a text that reads as a number is written as this number is. -/
def isPlain (text : String) : Bool :=
  (Value.text text).numeric?.all fun n => n.toText = text

/-- Whether a number format writes the sign of a zero. -/
def showsZeroSign (numberFormat : Option String) : Bool :=
  match (numberFormat.bind fun spec => NumberFormat.parse? spec.toList).bind NumberFormat.kind with
  | none | some .character => false
  | some _ => true

/-- Whether a number is written as the one that its literal is read as. -/
def keepsNumber (numberFormat : Option String) (n : Double) : Bool :=
  !(n.isZero && n.signBit) || !showsZeroSign numberFormat

/-- Whether a value is written as the one that its literal is read as. -/
def keepsValue (numberFormat padding : Option String) : Value → Bool
  | .number n => keepsNumber numberFormat n
  | .text text =>
    (Value.text text).numeric?.isNone || (isPlain text && numberFormat.isNone && padding.isNone)
  | _ => true

/-- Whether a date is written as the one that its literal is read as. -/
def DateSequence.keepsDate (sequence : DateSequence) (own : DateTime) : Bool :=
  own = { date := own.date } || !showsTime sequence.template.toList || 9999 < own.date.year

/-- Whether the own value of an emission is written as the one that its literal is read as. -/
def Generator.keepsText (budget : Budget) (emitted index : Nat) (values : PlaceholderValues) : Generator → Bool
  | number sequence => keepsNumber sequence.format (sequence.valueAt emitted index)
  | word _ => true
  | date sequence => sequence.keepsDate (sequence.dateAt index)
  | items sequence => (sequence.itemAt? index).all isPlain
  | selected _ => isPlain values.selected
  | expression sequence =>
    keepsValue sequence.numberFormat sequence.padding (sequence.valueAt budget index values).value
  | function sequence =>
    sequence.callable.all fun callable =>
      keepsValue sequence.numberFormat sequence.padding (sequence.call budget index callable).value
  | nothing => true

theorem textOfResult_of_isPlain {text : String} (h : isPlain text = true) :
    textOfResult text (reread (.text text)) = text := by
  rw [textOfResult_reread]
  unfold isPlain at h
  cases hnumeric : (Value.text text).numeric? with
  | none => rfl
  | some n =>
    rw [hnumeric] at h
    exact of_decide_eq_true h

/-- A format that names no notation writes no sign of zero, and a character has none. -/
theorem apply_unsignedZero {format : NumberFormat} (h : format.kind = none ∨ format.kind = some .character)
    (n : Double) : format.apply n.unsignedZero = format.apply n := by
  obtain hsame | ⟨hgrid, rfl, hzero⟩ := n.unsignedZero_eq_or
  · rw [hsame]
  · -- the two zeros differ in nothing but the sign bit
    rw [hzero]
    have habs : (Double.finite false 0 hgrid).abs = (Double.finite true 0 hgrid).abs := rfl
    have hless : (Double.finite false 0 hgrid).less 0 = (Double.finite true 0 hgrid).less 0 := by
      rw [← hzero, Double.less_zero_unsignedZero]
    obtain hkind | hkind := h
    · have hsign : format.signText (.finite false 0 hgrid) = format.signText (.finite true 0 hgrid) := by
        unfold NumberFormat.signText
        rw [hless, hkind, Option.isSome_none, Bool.and_false, Bool.and_false]
      have happly (negative : Bool) : format.apply (.finite negative 0 hgrid) =
          String.ofList (format.pad (format.signText (.finite negative 0 hgrid))
            (format.body (Double.finite negative 0 hgrid).abs)) := by
        unfold NumberFormat.apply
        rw [hkind]
        rfl
      rw [happly, happly, hsign, habs]
    · have happly (negative : Bool) : format.apply (.finite negative 0 hgrid) =
          String.ofList (format.pad [] [Char.ofNat 0]) := by
        unfold NumberFormat.apply
        dsimp only
        rw [hkind, Double.toNat32_round_zero]
        rfl
      rw [happly, happly]

theorem formatNumber_of_keepsNumber {spec : String} {n : Double} (h : keepsNumber (some spec) n = true) :
    formatNumber n.unsignedZero spec = formatNumber n spec := by
  unfold formatNumber
  cases hformat : NumberFormat.parse? spec.toList with
  | none => exact n.toText_unsignedZero
  | some format =>
    rcases Bool.or_eq_true_iff.1 h with hsign | hshown
    · obtain hsame | ⟨_, rfl, -⟩ := n.unsignedZero_eq_or
      · rw [hsame]
      · cases hsign
    · refine apply_unsignedZero ?_ n
      unfold showsZeroSign at hshown
      rw [Option.bind_some, hformat, Option.bind_some] at hshown
      cases hkind : format.kind with
      | none => exact .inl rfl
      | some kind =>
        rw [hkind] at hshown
        cases kind <;> first | exact .inr rfl | cases hshown

theorem NumberSequence.render_of_keepsNumber {sequence : NumberSequence} {own : Double}
    (h : keepsNumber sequence.format own = true) : sequence.render own.unsignedZero = sequence.render own := by
  unfold render
  cases hformat : sequence.format with
  | none =>
    have hplain : sequence.plainText own.unsignedZero = sequence.plainText own := by
      unfold plainText
      rw [own.less_zero_unsignedZero, own.abs_unsignedZero]
    dsimp only
    rw [own.isFinite_unsignedZero, hplain, own.toText_unsignedZero]
  | some spec =>
    rw [hformat] at h
    exact formatNumber_of_keepsNumber h

theorem renderValue_of_keepsValue {numberFormat padding : Option String} {value : Value}
    (h : keepsValue numberFormat padding value = true) :
    renderValue numberFormat padding (reread value) = renderValue numberFormat padding value := by
  cases value with
  | number n =>
    cases numberFormat with
    | none => exact n.toText_unsignedZero
    | some spec => exact formatNumber_of_keepsNumber h
  | text text =>
    cases hnumeric : (Value.text text).numeric? with
    | none => rw [reread_text_none hnumeric]
    | some n =>
      -- the number takes the place of the text, so nothing may be applied to either
      unfold keepsValue isPlain at h
      simp only [hnumeric, Option.isNone_some, Bool.false_or, Option.all_some, Bool.and_eq_true, decide_eq_true_eq,
        Option.isNone_iff_eq_none] at h
      obtain ⟨⟨hplain, rfl⟩, rfl⟩ := h
      rw [reread_text_some hnumeric]
      exact n.toText_unsignedZero.trans hplain
  | _ => rfl

theorem DateSequence.text_of_keepsDate {sequence : DateSequence} {own : DateTime} (h : sequence.keepsDate own = true) :
    sequence.producer.text (sequence.producer.fromLiteral own) = sequence.producer.text own := by
  rw [sequence.fromLiteral_eq]
  split
  · rename_i hyear
    have hlong : ¬9999 < own.date.year := by omega
    simp only [keepsDate, hlong, decide_false, Bool.or_false, Bool.or_eq_true, decide_eq_true_eq, Bool.not_eq_true'] at h
    obtain hmidnight | hdate := h
    · rw [← hmidnight]
    · exact congrArg String.ofList (renderTemplate_midnight own sequence.language hdate)
  · rfl

/-- A text that stays is the one without the expression. -/
theorem Generator.text_of_keepsText {generator : Generator} {budget : Budget} {made : Σ α : Type, Producer α}
    (h : generator.producer? budget = some made) {emitted index : Nat} {values : PlaceholderValues}
    (hkeeps : generator.keepsText budget emitted index values = true) {own : Logged made.1}
    (hown : made.2.own? emitted index values = some own) :
    made.2.text (made.2.fromLiteral own.value) = made.2.text own.value := by
  cases generator with
  | number sequence =>
    cases h
    cases hown
    rw [sequence.fromLiteral_eq]
    exact sequence.render_of_keepsNumber hkeeps
  | word sequence =>
    cases h
    rw [sequence.fromLiteral_eq]
  | date sequence =>
    cases h
    cases hown
    exact sequence.text_of_keepsDate hkeeps
  | items sequence =>
    cases h
    obtain ⟨item, hitem, rfl⟩ := Option.map_eq_some_iff.1 hown
    replace hkeeps : (sequence.itemAt? index).all isPlain = true := hkeeps
    rw [hitem, Option.all_some] at hkeeps
    rw [sequence.fromLiteral_eq]
    exact congrArg sequence.producer.text (textOfResult_of_isPlain hkeeps)
  | selected sequence =>
    cases h
    cases hown
    rw [sequence.fromLiteral_eq]
    exact congrArg sequence.producer.text (textOfResult_of_isPlain hkeeps)
  | expression sequence =>
    cases h
    cases hown
    rw [sequence.fromLiteral_eq]
    exact renderValue_of_keepsValue hkeeps
  | function sequence =>
    cases h
    obtain ⟨callable, hcallable, rfl⟩ := Option.map_eq_some_iff.1 hown
    replace hkeeps : sequence.callable.all (fun callable =>
        keepsValue sequence.numberFormat sequence.padding (sequence.call budget index callable).value) = true := hkeeps
    rw [hcallable, Option.all_some] at hkeeps
    rw [sequence.fromLiteral_eq]
    exact renderValue_of_keepsValue hkeeps
  | nothing => cases h

end Sequence

end SequenceNotation
