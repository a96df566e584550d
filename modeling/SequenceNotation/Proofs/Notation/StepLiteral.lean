import SequenceNotation.Proofs.Notation.SegmentPatterns
import SequenceNotation.Proofs.Pattern.Words
import SequenceNotation.Proofs.Number.RoundTrip

/-!
# Steps and counts as they are written

A step is a decimal with an optional sign, and may end in the letter of a unit of time; a count is a positive number
in digits.  Both are read back exactly.
-/

namespace SequenceNotation.Notation

open SequenceNotation.Text SequenceNotation.Pattern SequenceNotation.Number
open SequenceNotation.Calendar (DateUnit)

/-! ### Steps -/

/-- The letters that stand for units of time. -/
def unitLetters : List Char :=
  ['d', 'w', 'm', 'y', 'D', 'W', 'M', 'Y']

/-- A decimal with an optional sign, as it is written. -/
structure DecimalLiteral where
  sign : Option Char
  whole : List Char
  /-- The digits behind the point, if there is one. -/
  places : Option (List Char)
  sign_eq : ∀ c ∈ sign, c = '+' ∨ c = '-'
  whole_ne_nil : whole ≠ []
  isDigit_whole : ∀ c ∈ whole, c.isDigit
  places_ne_nil : ∀ digits ∈ places, digits ≠ []
  isDigit_places : ∀ digits ∈ places, ∀ c ∈ digits, c.isDigit

namespace DecimalLiteral

/-- The point and the digits behind it. -/
def fraction (literal : DecimalLiteral) : List Char :=
  match literal.places with
  | some digits => '.' :: digits
  | none => []

def text (literal : DecimalLiteral) : List Char :=
  literal.sign.toList ++ (literal.whole ++ literal.fraction)

/-- The double nearest to the decimal. -/
def value (literal : DecimalLiteral) : Double :=
  nearestDecimal (literal.sign = some '-') (digitsValue (literal.whole ++ literal.places.getD []))
    (-((literal.places.getD []).length : Int))

/-- A decimal consists of digits, a sign and a point. -/
theorem mem_text (literal : DecimalLiteral) {c : Char} (h : c ∈ literal.text) : c.isDigit ∨ c ∈ ['+', '-', '.'] := by
  simp only [text, List.mem_append, Option.mem_toList] at h
  rcases h with hsign | hwhole | hfraction
  · rcases literal.sign_eq c hsign with rfl | rfl <;> exact .inr (by decide)
  · exact .inl (literal.isDigit_whole c hwhole)
  · unfold fraction at hfraction
    split at hfraction
    · rename_i digits hdigits
      rcases List.mem_cons.1 hfraction with rfl | hmem
      · exact .inr (by decide)
      · exact .inl (literal.isDigit_places digits hdigits c hmem)
    · cases hfraction

theorem text_ne_nil (literal : DecimalLiteral) : literal.text ≠ [] := by
  intro hnil
  have hwhole := List.append_eq_nil_iff.1 (List.append_eq_nil_iff.1 hnil).2
  exact literal.whole_ne_nil hwhole.1

end DecimalLiteral

/-- A step with the letter of its unit of time, if there is one. -/
structure StepLiteral where
  amount : DecimalLiteral
  unit : Option Char
  unit_mem : ∀ c ∈ unit, c ∈ unitLetters

namespace StepLiteral

def text (literal : StepLiteral) : List Char :=
  literal.amount.text ++ literal.unit.toList

/-- The unit that the letter stands for. -/
def dateUnit (literal : StepLiteral) : Option DateUnit :=
  literal.unit.bind fun c => unitOfLetter? [c]

end StepLiteral

/-! ### Reading steps -/

theorem holds_digit {c : Char} (h : c.isDigit) : CharClass.digit.holds c := by
  have hsmall : c.toNat < 128 := by
    have hnine : c.val ≤ '9'.val := of_decide_eq_true (Bool.and_eq_true_iff.1 h).2
    exact Nat.lt_of_le_of_lt (UInt32.le_iff_toNat_le.1 hnine) (by decide)
  rw [CharClass.holds, isDecimalDigit, if_pos hsmall]
  exact h

/-- A plus sign in front of digits changes nothing. -/
theorem readDouble_plus {text : List Char} (h : ∃ d rest, text = d :: rest ∧ d.isDigit = true) :
    readDouble ('+' :: text) = readDouble text := by
  obtain ⟨d, rest, rfl, hd⟩ := h
  have hspan : spanSign (d :: rest) = (false, d :: rest) := spanSign_of_head (isSign_of_isDigit hd)
  rw [readDouble, readDouble, hspan]
  rfl

theorem readUnsigned_text (literal : DecimalLiteral) (negative : Bool) :
    readUnsigned negative (literal.whole ++ literal.fraction) =
      some (nearestDecimal negative (digitsValue (literal.whole ++ literal.places.getD []))
        (-((literal.places.getD []).length : Int))) := by
  cases hplaces : literal.places with
  | none =>
    have hfraction : literal.fraction = [] := by rw [DecimalLiteral.fraction, hplaces]
    rw [hfraction, List.append_nil, readUnsigned_whole negative literal.whole_ne_nil literal.isDigit_whole]
    simp
  | some digits =>
    have hfraction : literal.fraction = '.' :: digits := by rw [DecimalLiteral.fraction, hplaces]
    rw [hfraction, readUnsigned_fraction negative literal.whole_ne_nil literal.isDigit_whole
      (literal.isDigit_places digits hplaces)]
    rfl

theorem readDouble_text (literal : DecimalLiteral) : readDouble literal.text = some literal.value := by
  have hdigit : ∃ d rest, literal.whole ++ literal.fraction = d :: rest ∧ d.isDigit = true := by
    obtain ⟨d, rest, hwhole⟩ := List.exists_cons_of_ne_nil literal.whole_ne_nil
    refine ⟨d, rest ++ literal.fraction, by rw [hwhole]; rfl, literal.isDigit_whole d ?_⟩
    rw [hwhole]
    exact List.mem_cons_self
  rw [DecimalLiteral.text, DecimalLiteral.value, ← readUnsigned_text]
  cases hsign : literal.sign with
  | none => exact readDouble_signed hdigit false
  | some c =>
    rcases literal.sign_eq c hsign with rfl | rfl
    · exact (readDouble_plus hdigit).trans (readDouble_signed hdigit false)
    · exact readDouble_signed hdigit true

def signClass : CharClass :=
  .items false [.range '+' '+', .range '-' '-']

theorem holds_signClass {c : Char} (h : signClass.holds c) : c = '+' ∨ c = '-' := by
  simp only [signClass, CharClass.holds, ClassItem.holds, List.any_cons, List.any_nil, Bool.or_false, Bool.bne_false,
    Bool.or_eq_true, Bool.and_eq_true, decide_eq_true_eq] at h
  rcases h with ⟨hle, hge⟩ | ⟨hle, hge⟩
  · exact .inl (Char.le_antisymm hge hle)
  · exact .inr (Char.le_antisymm hge hle)

/-- No digit is a sign. -/
theorem holds_sign {c : Char} (h : isDecimalDigit c) : signClass.holds c = false := by
  refine Bool.eq_false_iff.2 fun hsign => ?_
  rcases holds_signClass hsign with rfl | rfl <;> exact absurd h (by decide)

def unitClass : CharClass :=
  .items false (unitLetters.map fun c => .range c c)

/-- The pattern of a point and the digits behind it. -/
def fractionPattern : Pattern :=
  .repeated (.sequence (.one (.literal '.')) (.repeated (.one .digit) 1 none)) 0 (some 1)

/-- The pattern of a decimal with an optional sign. -/
def decimalPattern : Pattern :=
  .sequence (.repeated (.one signClass) 0 (some 1)) (.sequence (.repeated (.one .digit) 1 none) fractionPattern)

/-- The expansion of the segment for steps. -/
def stepSource : String :=
  "^ (?P<amount> (?:(?:[+-])? \\d+ (?: \\. \\d+ )?) ) (?P<unit> [dwmyDWMY] )? $"

theorem pattern_stepValue (delimiter : Option String) :
    (Segments.ofDelimiter delimiter).pattern "step_value" =
      .sequence .start (.sequence (.named "amount" decimalPattern)
        (.sequence (.repeated (.named "unit" (.one unitClass)) 0 (some 1)) .finish)) := by
  have hexpansion : expansion? fixedDefinitions 3 "step_value" = some stepSource.toList :=
    expansion?_of_source rfl String.toList_ofList String.toList_ofList (by decide)
  have hchars : stepSource.toList = _ := String.toList_ofList
  rw [pattern_eq (by decide) (expansion?_fixed delimiter hexpansion), hchars]
  decide

theorem pattern_countValue (delimiter : Option String) :
    (Segments.ofDelimiter delimiter).pattern "count_value" =
      .sequence .start (.sequence (.repeated (.one .digit) 1 none) .finish) := by
  rw [pattern_of_plain delimiter (by decide) rfl String.toList_ofList (by decide)]
  decide

variable {α : Type}

/-- The parts of a decimal as the patterns take it: digits of every script, and at least one behind a point. -/
structure IsDecimal (sign : Option Char) (whole : List Char) (places : Option (List Char)) : Prop where
  sign_eq : ∀ c ∈ sign, c = '+' ∨ c = '-'
  whole_ne_nil : whole ≠ []
  isDecimalDigit_whole : ∀ c ∈ whole, isDecimalDigit c
  places_ne_nil : ∀ digits ∈ places, digits ≠ []
  isDecimalDigit_places : ∀ digits ∈ places, ∀ c ∈ digits, isDecimalDigit c

theorem DecimalLiteral.isDecimal (literal : DecimalLiteral) :
    IsDecimal literal.sign literal.whole literal.places where
  sign_eq := literal.sign_eq
  whole_ne_nil := literal.whole_ne_nil
  isDecimalDigit_whole c hc := holds_digit (literal.isDigit_whole c hc)
  places_ne_nil := literal.places_ne_nil
  isDecimalDigit_places digits hdigits c hc := holds_digit (literal.isDigit_places digits hdigits c hc)

namespace IsDecimal

variable {sign : Option Char} {whole : List Char} {places : Option (List Char)}

/-- The places of a decimal are matched, where neither a digit nor a point follows. -/
theorem matchAt_fraction (hdecimal : IsDecimal sign whole places) {rest : List Char}
    (hdigit : rest.head?.any isDecimalDigit = false) (hpoint : rest.head? ≠ some '.') {place : Nat}
    {captures : Captures} {next : Continuation α} {a : α}
    (hnext : next (place + (fractionText places).length) rest captures = some a) :
    fractionPattern.matchAt place (fractionText places ++ rest) captures next = some a := by
  cases places with
  | none =>
    have hhead : rest.head?.any (CharClass.literal '.').holds = false := by
      cases rest with
      | nil => rfl
      | cons c rest => exact decide_eq_false fun hc => hpoint (congrArg some hc)
    refine (matchAt_optional_none ?_).trans hnext
    rw [fractionText, List.nil_append, matchAt]
    exact matchAt_one_none hhead place captures _
  | some digits =>
    have hall : ∀ c ∈ digits, CharClass.digit.holds c := hdecimal.isDecimalDigit_places digits rfl
    refine matchAt_optional_some ?_
    have hrun : (Pattern.repeated (.one .digit) 1 none).matchAt (place + 1) (digits ++ rest) captures next = some a := by
      refine matchAt_run (hdecimal.places_ne_nil digits rfl) hall hdigit ?_
      rw [Nat.add_assoc, Nat.add_comm 1]
      exact hnext
    exact hrun

/-- A decimal is matched as a whole, where neither a digit nor a point follows. -/
theorem matchAt_decimal (hdecimal : IsDecimal sign whole places) {rest : List Char}
    (hdigit : rest.head?.any isDecimalDigit = false) (hpoint : rest.head? ≠ some '.') {place : Nat}
    {captures : Captures} {next : Continuation α} {a : α}
    (hnext : next (place + (sign.toList ++ (whole ++ fractionText places)).length) rest captures = some a) :
    decimalPattern.matchAt place (sign.toList ++ (whole ++ fractionText places) ++ rest) captures next = some a := by
  have hunsigned {place : Nat} (hnext : next (place + (whole ++ fractionText places).length) rest captures = some a) :
      (Pattern.sequence (.repeated (.one .digit) 1 none) fractionPattern).matchAt place
        (whole ++ (fractionText places ++ rest)) captures next = some a := by
    have hall : ∀ c ∈ whole, CharClass.digit.holds c := hdecimal.isDecimalDigit_whole
    refine matchAt_run hdecimal.whole_ne_nil hall ?_ (hdecimal.matchAt_fraction hdigit hpoint ?_)
    · cases places with
      | none => exact hdigit
      | some digits => rfl
    · rwa [Nat.add_assoc, ← List.length_append]
  rw [List.append_assoc, List.append_assoc]
  cases sign with
  | none =>
    have hhead : (whole ++ (fractionText places ++ rest)).head?.any signClass.holds = false := by
      obtain ⟨d, digits, hwhole⟩ := List.exists_cons_of_ne_nil hdecimal.whole_ne_nil
      have hd := hdecimal.isDecimalDigit_whole d (by rw [hwhole]; exact List.mem_cons_self)
      rw [hwhole]
      show signClass.holds d = false
      exact holds_sign hd
    exact (matchAt_optional_none (matchAt_one_none hhead place captures _)).trans (hunsigned hnext)
  | some c =>
    have hc : signClass.holds c := by
      rcases hdecimal.sign_eq c rfl with rfl | rfl <;> rfl
    refine matchAt_optional_some ?_
    show (if signClass.holds c then (Pattern.sequence (.repeated (.one .digit) 1 none) fractionPattern).matchAt
      (place + 1) (whole ++ (fractionText places ++ rest)) captures next else none) = some a
    rw [if_pos hc]
    refine hunsigned ?_
    rw [Nat.add_assoc, Nat.add_comm 1]
    exact hnext

/-- A decimal, and the letter of a unit if there is one, are taken for a step. -/
theorem find?_stepValue (hdecimal : IsDecimal sign whole places) {unit : Option Char}
    (hunit : ∀ c ∈ unit, c ∈ unitLetters) (delimiter : Option String) :
    ∃ found, (Segments.ofDelimiter delimiter).find? "step_value"
        (sign.toList ++ (whole ++ fractionText places) ++ unit.toList) = some found ∧
      found.part? "amount" = some (sign.toList ++ (whole ++ fractionText places)) ∧
      found.part? "unit" = unit.map ([·]) := by
  have hamount (amount rest : List Char) : (amount ++ rest).take ((amount ++ rest).length - rest.length) = amount := by
    simp
  rw [Segments.find?, pattern_stepValue, find?_start]
  cases unit with
  | none =>
    refine ⟨_, hdecimal.matchAt_decimal rfl (by decide) rfl, ?_, rfl⟩
    exact congrArg some (hamount _ [])
  | some c =>
    -- The letter is none of what could make the decimal longer.
    have hletter : isDecimalDigit c = false ∧ c ≠ '.' ∧ unitClass.holds c := by
      have hall : ∀ c ∈ unitLetters, isDecimalDigit c = false ∧ c ≠ '.' ∧ unitClass.holds c :=
        forall_of_all (by decide)
      exact hall c (hunit c rfl)
    have hend {place : Nat} {captures : Captures} {next : Continuation Found} {found : Found}
        (hnext : next (place + 1) [] (captures.record "unit" [c]) = some found) :
        (Pattern.sequence (.repeated (.named "unit" (.one unitClass)) 0 (some 1)) .finish).matchAt place [c] captures
          next = some found := by
      refine matchAt_optional_some ?_
      show (if unitClass.holds c then next (place + 1) [] (captures.record "unit" [c]) else none) = some found
      rw [if_pos hletter.2.2, hnext]
    have hpoint : [c].head? ≠ some '.' := fun hpoint => hletter.2.1 (Option.some.inj hpoint)
    have hdigit : [c].head?.any isDecimalDigit = false := hletter.1
    refine ⟨_, hdecimal.matchAt_decimal hdigit hpoint (hend rfl), ?_, rfl⟩
    exact congrArg some (hamount _ [c])

end IsDecimal

theorem find?_stepValue (delimiter : Option String) (literal : StepLiteral) :
    ∃ found, (Segments.ofDelimiter delimiter).find? "step_value" literal.text = some found ∧
      found.part? "amount" = some literal.amount.text ∧ found.part? "unit" = literal.unit.map ([·]) :=
  literal.amount.isDecimal.find?_stepValue literal.unit_mem delimiter

/-- A step is read as it is written. -/
theorem setStep_text (delimiter : Option String) (modifiers : Modifiers) (literal : StepLiteral) :
    (modifiers.setStep (Segments.ofDelimiter delimiter) literal.text).value =
      { modifiers with step := literal.amount.value, dateUnit := literal.dateUnit } := by
  obtain ⟨found, hfound, hamount, hunit⟩ := find?_stepValue delimiter literal
  rw [Modifiers.setStep, hfound]
  simp only [hamount, hunit, Logged.value_pure, Option.bind_some, readDouble_text, Option.getD_some,
    StepLiteral.dateUnit, Option.bind_map]
  rfl

/-- A step without a unit is read as it is written. -/
theorem setStep_decimal (delimiter : Option String) (modifiers : Modifiers) (literal : DecimalLiteral) :
    (modifiers.setStep (Segments.ofDelimiter delimiter) literal.text).value =
      { modifiers with step := literal.value, dateUnit := none } := by
  have hstep := setStep_text delimiter modifiers { amount := literal, unit := none, unit_mem := by simp }
  have htext : StepLiteral.text { amount := literal, unit := none, unit_mem := by simp } = literal.text :=
    List.append_nil _
  rwa [htext] at hstep

/-! ### Counts -/

/-- A positive number below the bound of counts, as it is written. -/
structure CountLiteral where
  digits : List Char
  isDigit_digits : ∀ c ∈ digits, c.isDigit
  value_pos : 0 < digitsValue digits
  value_lt : digitsValue digits < countBound

namespace CountLiteral

def value (literal : CountLiteral) : Nat :=
  digitsValue literal.digits

theorem digits_ne_nil (literal : CountLiteral) : literal.digits ≠ [] := by
  intro hnil
  have hpos := literal.value_pos
  rw [hnil] at hpos
  exact absurd hpos (by decide)

end CountLiteral

theorem readRadix?_digits {digits : List Char} (hne : digits ≠ []) (hall : ∀ c ∈ digits, c.isDigit) :
    readRadix? 10 digits = some (digitsValue digits) := by
  have hdigit {c : Char} (hc : c.isDigit) : radixDigit? 10 c = some (c.toNat - '0'.toNat) := by
    have hnine : c.toNat ≤ '9'.toNat := UInt32.le_iff_toNat_le.1 (of_decide_eq_true (Bool.and_eq_true_iff.1 hc).2)
    have hlt : c.toNat - '0'.toNat < 10 := Nat.lt_of_le_of_lt (Nat.sub_le_sub_right hnine _) (by decide)
    rw [radixDigit?, digitValue?, if_pos hc]
    exact if_pos (decide_eq_true hlt)
  have hmap : digits.mapM (radixDigit? 10) = some (digits.map fun c => c.toNat - '0'.toNat) := by
    clear hne
    induction digits with
    | nil => rfl
    | cons c digits ih =>
      obtain ⟨hc, hrest⟩ := List.forall_mem_cons.1 hall
      rw [List.mapM_cons, hdigit hc, ih hrest]
      rfl
  rw [readRadix?, if_neg hne, hmap, Option.map_some, List.foldl_map]
  rfl

/-- A count is read as it is written. -/
theorem readCount?_digits (delimiter : Option String) (literal : CountLiteral) :
    readCount? (Segments.ofDelimiter delimiter) literal.digits = some literal.value := by
  have hmatch : ((Segments.ofDelimiter delimiter).find? "count_value" literal.digits).isSome := by
    rw [Segments.find?, pattern_countValue, find?_start]
    have hrun := fun (next : Continuation Found) (found : Found) =>
      @matchAt_run _ .digit literal.digits [] literal.digits_ne_nil
        (fun c hc => holds_digit (literal.isDigit_digits c hc)) rfl 0 [] next found
    rw [List.append_nil] at hrun
    exact Option.isSome_iff_exists.2 ⟨_, hrun _ _ rfl⟩
  have hbounded : readBounded? countBound literal.digits = some literal.value := by
    obtain ⟨d, rest, hdigits⟩ := List.exists_cons_of_ne_nil literal.digits_ne_nil
    have hsign : d ≠ '+' := by
      rintro rfl
      exact absurd (literal.isDigit_digits '+' (by rw [hdigits]; exact List.mem_cons_self)) (by decide)
    have hvalue : readRadix? 10 literal.digits = some literal.value :=
      readRadix?_digits literal.digits_ne_nil literal.isDigit_digits
    unfold readBounded?
    split
    · -- a plus sign would be left out, but digits do not begin with one
      rename_i hplus
      rw [hdigits] at hplus
      exact absurd (List.cons.inj hplus).1 hsign
    · show (readRadix? 10 literal.digits).filter _ = _
      rw [hvalue]
      exact if_pos (decide_eq_true literal.value_lt)
  rw [readCount?, if_pos hmatch, hbounded]
  exact if_pos (decide_eq_true literal.value_pos)

/-- A count is set as it is written. -/
theorem setCount_digits (delimiter : Option String) (modifiers : Modifiers) (subject : String)
    (literal : CountLiteral) (set : Nat → Modifiers) :
    (modifiers.setCount (Segments.ofDelimiter delimiter) subject literal.digits set).value = set literal.value := by
  rw [Modifiers.setCount, readCount?_digits]
  rfl

end SequenceNotation.Notation
