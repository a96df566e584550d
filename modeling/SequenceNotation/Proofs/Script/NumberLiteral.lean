import SequenceNotation.Proofs.Number.RoundTrip
import SequenceNotation.Proofs.Script.Lookahead

/-!
# Numbers as scripts write them

A decimal number is written with digits, a point among or around them and an exponent, of which point and exponent may
be left out.  The length that is taken for a number at the start of a text is the length of such a number, none that
the text begins with is longer, and its value is read from it.
-/

namespace SequenceNotation.Script

open SequenceNotation.Number SequenceNotation.Text

/-! ### Exponents -/

/-- An exponent as it is written. -/
structure ExponentPart where
  letter : Char
  sign : List Char
  digits : List Char
  isExponentLetter_letter : isExponentLetter letter
  sign_mem : sign ∈ [[], ['+'], ['-']]
  digits_ne_nil : digits ≠ []
  isDigit_digits : ∀ c ∈ digits, c.isDigit

namespace ExponentPart

def text (part : ExponentPart) : List Char :=
  part.letter :: (part.sign ++ part.digits)

def value (part : ExponentPart) : Int :=
  if part.sign = ['-'] then -(digitsValue part.digits : Int) else digitsValue part.digits

theorem letter_eq (part : ExponentPart) : part.letter = 'e' ∨ part.letter = 'E' := by
  simpa [isExponentLetter] using part.isExponentLetter_letter

theorem sign_cases (part : ExponentPart) : part.sign = [] ∨ part.sign = ['+'] ∨ part.sign = ['-'] := by
  simpa using part.sign_mem

/-- Behind the sign there is a digit, which is no sign. -/
theorem head?_digits (part : ExponentPart) (tail : List Char) : (part.digits ++ tail).head?.any isSign = false := by
  obtain ⟨d, digits, hdigits⟩ := List.exists_cons_of_ne_nil part.digits_ne_nil
  rw [hdigits]
  exact isSign_of_isDigit (part.isDigit_digits d (by rw [hdigits]; exact List.mem_cons_self))

theorem signLength_text (part : ExponentPart) (tail : List Char) :
    signLength (part.sign ++ (part.digits ++ tail)) = part.sign.length := by
  rcases part.sign_cases with hsign | hsign | hsign
  · rw [hsign, List.nil_append, signLength, part.head?_digits]
    rfl
  · rw [hsign]
    rfl
  · rw [hsign]
    rfl

theorem readExponent_text (part : ExponentPart) : readExponent part.text = some part.value := by
  have hspan : spanSign (part.sign ++ part.digits) = (decide (part.sign = ['-']), part.digits) := by
    have hhead := part.head?_digits []
    rw [List.append_nil] at hhead
    rcases part.sign_cases with hsign | hsign | hsign
    · rw [hsign]
      exact spanSign_of_head hhead
    · rw [hsign]
      rfl
    · rw [hsign]
      rfl
  have hall : part.digits.all Char.isDigit := List.all_eq_true.2 part.isDigit_digits
  rw [text, readExponent, if_pos part.letter_eq, hspan]
  simp only [ne_eq, part.digits_ne_nil, not_false_eq_true, hall, and_self, if_true, decide_eq_true_eq, value]

/-- An exponent at the start of a text is taken at least as far as it goes. -/
theorem length_le_exponentLength (part : ExponentPart) (tail : List Char) :
    part.text.length ≤ exponentLength (part.text ++ tail) := by
  have hpos : 0 < part.digits.length := List.length_pos_iff.2 part.digits_ne_nil
  have hdrop : (part.sign ++ (part.digits ++ tail)).drop part.sign.length = part.digits ++ tail := List.drop_left
  have hrun := runLength_append_of_all part.isDigit_digits tail
  rw [text, List.cons_append, List.append_assoc, exponentLength, part.signLength_text, hdrop, hrun,
    if_pos ⟨part.isExponentLetter_letter, by omega⟩, List.length_cons, List.length_append]
  omega

end ExponentPart

def exponentText : Option ExponentPart → List Char
  | some part => part.text
  | none => []

/-- What is taken for an exponent is one, or nothing. -/
theorem exists_exponent (text : List Char) :
    ∃ exponent back, text = exponentText exponent ++ back ∧ exponentLength text = (exponentText exponent).length := by
  rcases Nat.eq_zero_or_pos (exponentLength text) with hzero | hpos
  · exact ⟨none, text, rfl, hzero⟩
  · cases text with
    | nil => cases hpos
    | cons e rest =>
      obtain ⟨hletter, hdigit⟩ := exponentLength_pos_iff.1 hpos
      rw [← runLength_pos_iff] at hdigit
      let behind := rest.drop (signLength rest)
      have hbehind : behind.takeWhile Char.isDigit ++ behind.dropWhile Char.isDigit = behind :=
        List.takeWhile_append_dropWhile
      let part : ExponentPart :=
        { letter := e
          sign := rest.take (signLength rest)
          digits := behind.takeWhile Char.isDigit
          isExponentLetter_letter := hletter
          sign_mem := take_signLength_mem rest
          digits_ne_nil := List.length_pos_iff.1 hdigit
          isDigit_digits := List.all_eq_true.1 List.all_takeWhile }
      refine ⟨some part, behind.dropWhile Char.isDigit, ?_, ?_⟩
      · rw [exponentText, ExponentPart.text, List.cons_append, List.append_assoc, hbehind, List.take_append_drop]
      · have hsign : part.sign.length = signLength rest := List.length_take_of_le (signLength_le rest)
        have hdigits : part.digits.length = runLength Char.isDigit (rest.drop (signLength rest)) := rfl
        rw [exponentLength, if_pos ⟨hletter, hdigit⟩, exponentText, ExponentPart.text, List.length_cons,
          List.length_append, hsign, hdigits]
        omega

/-! ### Numbers -/

/-- A decimal number as it is written. -/
structure NumberLiteral where
  whole : List Char
  /-- The digits behind the point, if there is one. -/
  places : Option (List Char)
  exponent : Option ExponentPart
  isDigit_whole : ∀ c ∈ whole, c.isDigit
  isDigit_places : ∀ digits ∈ places, ∀ c ∈ digits, c.isDigit
  digits_ne_nil : whole ++ places.getD [] ≠ []

namespace NumberLiteral

def text (literal : NumberLiteral) : List Char :=
  literal.whole ++ (fractionText literal.places ++ exponentText literal.exponent)

/-- The double nearest to the number. -/
def value (literal : NumberLiteral) : Double :=
  nearestDecimal false (digitsValue (literal.whole ++ literal.places.getD []))
    ((literal.exponent.map ExponentPart.value).getD 0 - (literal.places.getD []).length)

end NumberLiteral

theorem head?_exponentText (exponent : Option ExponentPart) :
    (exponentText exponent).head?.any Char.isDigit = false ∧ (exponentText exponent).head? ≠ some '.' := by
  cases exponent with
  | none => exact ⟨rfl, by simp [exponentText]⟩
  | some part =>
    rw [exponentText, ExponentPart.text]
    rcases part.letter_eq with hletter | hletter <;> rw [hletter] <;> exact ⟨rfl, by simp⟩

theorem head?_exponentText_append (part : ExponentPart) (tail : List Char) :
    (exponentText (some part) ++ tail).head?.any Char.isDigit = false ∧
      (exponentText (some part) ++ tail).head? ≠ some '.' :=
  head?_exponentText (some part)

theorem readExponent_exponentText (exponent : Option ExponentPart) :
    readExponent (exponentText exponent) = some ((exponent.map ExponentPart.value).getD 0) := by
  cases exponent with
  | none => rfl
  | some part => exact part.readExponent_text

theorem NumberLiteral.mantissa_pos (literal : NumberLiteral) :
    0 < literal.whole.length + (fractionText literal.places).length := by
  refine Nat.pos_of_ne_zero fun hzero => literal.digits_ne_nil ?_
  obtain ⟨hwhole, hfraction⟩ := Nat.add_eq_zero_iff.1 hzero
  cases hplaces : literal.places with
  | none => rw [List.length_eq_zero_iff.1 hwhole]; rfl
  | some digits =>
    rw [hplaces] at hfraction
    cases hfraction

theorem NumberLiteral.length_text (literal : NumberLiteral) : literal.text.length =
    literal.whole.length + (fractionText literal.places).length + (exponentText literal.exponent).length := by
  rw [text, List.length_append, List.length_append, Nat.add_assoc]

theorem NumberLiteral.text_ne_nil (literal : NumberLiteral) : literal.text ≠ [] := by
  have hlength := literal.length_text
  have hpos := literal.mantissa_pos
  exact List.ne_nil_of_length_pos (by omega)

/-- A number is read as it is written. -/
theorem NumberLiteral.readUnsigned_text (literal : NumberLiteral) :
    readUnsigned false literal.text = some literal.value := by
  obtain ⟨hdigit, hpoint⟩ := head?_exponentText literal.exponent
  rw [text, readUnsigned_parts false literal.isDigit_whole literal.isDigit_places literal.digits_ne_nil hdigit hpoint,
    readExponent_exponentText]
  rfl

/-- What is taken for a point and places is that, or nothing. -/
theorem exists_fraction (text : List Char) :
    ∃ places back, text = fractionText places ++ back ∧ fractionLength text = (fractionText places).length ∧
      ∀ digits ∈ places, ∀ c ∈ digits, c.isDigit := by
  cases text with
  | nil => exact ⟨none, [], rfl, rfl, by simp⟩
  | cons c digits =>
    by_cases hc : c = '.'
    · subst hc
      refine ⟨some (digits.takeWhile Char.isDigit), digits.dropWhile Char.isDigit, ?_, ?_, ?_⟩
      · rw [fractionText, List.cons_append, List.takeWhile_append_dropWhile]
      · rw [fractionLength, if_pos rfl, fractionText, List.length_cons, runLength, Nat.add_comm]
      · rintro _ ⟨⟩
        exact List.all_eq_true.1 List.all_takeWhile
    · exact ⟨none, c :: digits, rfl, by rw [fractionLength, if_neg hc]; rfl, by simp⟩

theorem mantissaLength_le_decimalLength (text : List Char) : mantissaLength text ≤ decimalLength text := by
  rw [decimalLength]
  split
  · rename_i hzero
    rw [hzero]
  · exact Nat.le_add_right _ _

/-- What is taken for a decimal number is one. -/
theorem exists_numberLiteral {text : List Char} (h : 0 < decimalLength text) :
    ∃ (literal : NumberLiteral) (back : List Char),
      text = literal.text ++ back ∧ decimalLength text = literal.text.length := by
  let whole := text.takeWhile Char.isDigit
  obtain ⟨places, behind, hbehind, hfraction, hplaces⟩ := exists_fraction (text.dropWhile Char.isDigit)
  obtain ⟨exponent, back, rfl, hexponent⟩ := exists_exponent behind
  have htext : text = whole ++ (fractionText places ++ (exponentText exponent ++ back)) := by
    rw [← hbehind, List.takeWhile_append_dropWhile]
  have hmantissa : 0 < mantissaLength text := by
    refine Nat.pos_of_ne_zero fun hzero => ?_
    rw [decimalLength, if_pos hzero] at h
    exact absurd h (Nat.lt_irrefl 0)
  have hlength : mantissaLength text = whole.length + (fractionText places).length ∧
      ¬(whole.length = 0 ∧ (fractionText places).length < 2) := by
    rw [mantissaLength, drop_runLength, hfraction] at hmantissa ⊢
    split at hmantissa
    · exact absurd hmantissa (Nat.lt_irrefl 0)
    · rename_i hsome
      rw [if_neg hsome]
      exact ⟨rfl, hsome⟩
  -- A point alone is no number.
  have hne : whole ++ places.getD [] ≠ [] := by
    intro hnil
    obtain ⟨hwhole, hdigits⟩ := List.append_eq_nil_iff.1 hnil
    refine hlength.2 ⟨by rw [hwhole]; rfl, ?_⟩
    cases places with
    | none => decide
    | some digits =>
      rw [show digits = [] from hdigits]
      decide
  refine ⟨{ whole, places, exponent, isDigit_whole := List.all_eq_true.1 List.all_takeWhile,
            isDigit_places := hplaces, digits_ne_nil := hne }, back, ?_, ?_⟩
  · rw [NumberLiteral.text, List.append_assoc, List.append_assoc]
    exact htext
  · have hdrop : text.drop (mantissaLength text) = exponentText exponent ++ back := by
      rw [hlength.1, ← List.length_append]
      conv => lhs; rw [htext, ← List.append_assoc]
      exact List.drop_left
    rw [decimalLength, if_neg (Nat.pos_iff_ne_zero.1 hmantissa), hdrop, hexponent, hlength.1, NumberLiteral.text,
      List.length_append, List.length_append, Nat.add_assoc]

/-! ### The longest number -/

theorem fractionLength_of_head {text : List Char} (h : text.head? ≠ some '.') : fractionLength text = 0 := by
  cases text with
  | nil => rfl
  | cons c digits => exact if_neg fun hc => h (congrArg some hc)

/-- Digits and places at the start of a text are taken, and no more if neither a digit nor a point follows. -/
theorem exists_mantissaLength {whole : List Char} {places : Option (List Char)} (hwhole : ∀ c ∈ whole, c.isDigit)
    (hplaces : ∀ digits ∈ places, ∀ c ∈ digits, c.isDigit) (hne : whole ++ places.getD [] ≠ []) (back : List Char) :
    ∃ more, mantissaLength (whole ++ (fractionText places ++ back)) =
        whole.length + (fractionText places).length + more ∧
      (back.head?.any Char.isDigit = false → back.head? ≠ some '.' → more = 0) := by
  have hrun := runLength_append_of_all hwhole (fractionText places ++ back)
  cases places with
  | none =>
    -- Digits behind the whole part would make it longer, and a point would add places.
    have hpos : 0 < whole.length := List.length_pos_iff.2 (by simpa using hne)
    rw [fractionText, List.nil_append] at hrun ⊢
    refine ⟨runLength Char.isDigit back + fractionLength ((whole ++ back).drop (runLength Char.isDigit (whole ++ back))),
      ?_, fun hdigit hpoint => ?_⟩
    · rw [mantissaLength, if_neg (by omega), List.length_nil]
      omega
    · rw [hrun, runLength_eq_zero_iff.2 hdigit, Nat.add_zero, List.drop_left, fractionLength_of_head hpoint]
  | some digits =>
    -- The point ends the whole part, and only digits would make the places longer.
    have hdigits := runLength_append_of_all (hplaces digits rfl) back
    have hstop : runLength Char.isDigit (fractionText (some digits) ++ back) = 0 := by
      rw [fractionText, List.cons_append, runLength_cons]
      rfl
    have hfraction : fractionLength (fractionText (some digits) ++ back) =
        1 + (digits.length + runLength Char.isDigit back) := by
      rw [fractionText, List.cons_append, fractionLength, if_pos rfl, hdigits]
    have hsome : ¬(whole.length = 0 ∧ digits.length = 0) := by simpa using hne
    rw [hstop, Nat.add_zero] at hrun
    refine ⟨runLength Char.isDigit back, ?_, fun hdigit _ => runLength_eq_zero_iff.2 hdigit⟩
    rw [mantissaLength, hrun, List.drop_left, hfraction, if_neg (by omega), fractionText, List.length_cons]
    omega

/-- A number at the start of a text is taken at least as far as it goes. -/
theorem NumberLiteral.length_le_decimalLength (literal : NumberLiteral) (tail : List Char) :
    literal.text.length ≤ decimalLength (literal.text ++ tail) := by
  obtain ⟨more, hmantissa, hmore⟩ := exists_mantissaLength literal.isDigit_whole literal.isDigit_places
    literal.digits_ne_nil (exponentText literal.exponent ++ tail)
  have htext : literal.text ++ tail =
      literal.whole ++ (fractionText literal.places ++ (exponentText literal.exponent ++ tail)) := by
    rw [text, List.append_assoc, List.append_assoc]
  have hlength := literal.length_text
  rw [← htext] at hmantissa
  cases hexponent : literal.exponent with
  | none =>
    have hle := mantissaLength_le_decimalLength (literal.text ++ tail)
    rw [hexponent, exponentText, List.length_nil] at hlength
    omega
  | some part =>
    -- the mantissa stops in front of the letter, and the exponent is taken behind it
    obtain ⟨hdigit, hpoint⟩ := head?_exponentText_append part tail
    rw [hexponent] at hmore htext hlength
    rw [hmore hdigit hpoint, Nat.add_zero] at hmantissa
    have hne : 0 < literal.whole.length + (fractionText literal.places).length := literal.mantissa_pos
    have hdrop : (literal.text ++ tail).drop (mantissaLength (literal.text ++ tail)) = part.text ++ tail := by
      rw [hmantissa, htext, ← List.append_assoc, ← List.length_append]
      exact List.drop_left
    have hle := part.length_le_exponentLength tail
    rw [decimalLength, if_neg (by omega), hdrop, hmantissa, hlength]
    exact Nat.add_le_add_left hle _

end SequenceNotation.Script
