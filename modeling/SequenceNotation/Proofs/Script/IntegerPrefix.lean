import SequenceNotation.Proofs.Number.Numeral
import SequenceNotation.Proofs.Number.Order
import SequenceNotation.Proofs.Number.RoundTrip
import SequenceNotation.Proofs.Text.Blank
import SequenceNotation.Script.Builtin

/-!
# Integers at the start of a text

A text is taken apart into blanks, a sign, the longest run of digits of a radix and the rest, in exactly one way.  The
integer that scripts read from a text is the one of these parts if it needs no more than 63 bits; from there on there is
none, whatever the digits are.
-/

namespace SequenceNotation.Script

open SequenceNotation.Number SequenceNotation.Text

/-- A text taken apart: all blanks at its start, a sign if there is one, all digits of the radix behind them, and the
rest. -/
@[ext]
structure IntegerPrefix (radix : Nat) (text : List Char) where
  blanks : List Char
  sign : List Char
  digits : List Char
  rest : List Char
  text_eq : text = blanks ++ (sign ++ (digits ++ rest))
  isBlank_blanks : ∀ c ∈ blanks, isBlank c
  sign_mem : sign ∈ [[], ['+'], ['-']]
  isSome_digits : ∀ c ∈ digits, (radixDigit? radix c).isSome
  no_blank : (sign ++ (digits ++ rest)).head?.any isBlank = false
  no_sign : sign = [] → (digits ++ rest).head?.any isSign = false
  no_digit : rest.head?.any (fun c => (radixDigit? radix c).isSome) = false

theorem takeWhile_eq_nil_of_head {p : Char → Bool} {text : List Char} (h : text.head?.any p = false) :
    text.takeWhile p = [] := by
  cases text with
  | nil => rfl
  | cons c rest => exact List.takeWhile_cons_of_neg (Bool.eq_false_iff.1 h)

theorem head?_dropWhile_any (p : Char → Bool) (text : List Char) : (text.dropWhile p).head?.any p = false := by
  have hhead := List.head?_dropWhile_not p text
  cases hback : (text.dropWhile p).head? with
  | none => rfl
  | some c => simpa [hback] using hhead

namespace IntegerPrefix

variable {radix : Nat} {text : List Char}

/-- What the digits count. -/
def magnitude (read : IntegerPrefix radix text) : Nat :=
  numeralValue radix read.digits

/-- The double nearest to the integer that stands there; without digits that is none. -/
def value (read : IntegerPrefix radix text) : Double :=
  if read.digits = [] then .nan else Double.ofWhole (read.sign = ['-']) read.magnitude

theorem trimLeft_eq (read : IntegerPrefix radix text) : trimLeft text = read.sign ++ (read.digits ++ read.rest) :=
  calc trimLeft text
    _ = trimLeft (read.blanks ++ (read.sign ++ (read.digits ++ read.rest))) := congrArg trimLeft read.text_eq
    _ = trimLeft (read.sign ++ (read.digits ++ read.rest)) := List.dropWhile_append_of_pos read.isBlank_blanks
    _ = read.sign ++ (read.digits ++ read.rest) := trimLeft_of_head read.no_blank

theorem spanSign_eq (read : IntegerPrefix radix text) :
    spanSign (read.sign ++ (read.digits ++ read.rest)) = (decide (read.sign = ['-']), read.digits ++ read.rest) := by
  have hmem : read.sign = [] ∨ read.sign = ['+'] ∨ read.sign = ['-'] := by simpa using read.sign_mem
  rcases hmem with hnone | hplus | hminus
  · have hspan := spanSign_of_head (read.no_sign hnone)
    rw [hnone]
    exact hspan
  · rw [hplus]
    rfl
  · rw [hminus]
    rfl

theorem takeWhile_eq (read : IntegerPrefix radix text) :
    (read.digits ++ read.rest).takeWhile (fun c => (radixDigit? radix c).isSome) = read.digits := by
  rw [List.takeWhile_append_of_pos read.isSome_digits, takeWhile_eq_nil_of_head read.no_digit, List.append_nil]

/-- A text is taken apart in one way only. -/
theorem eq (read read' : IntegerPrefix radix text) : read = read' := by
  have htrim := read.trimLeft_eq.symm.trans read'.trimLeft_eq
  have hbehind : read.digits ++ read.rest = read'.digits ++ read'.rest := by
    have hspan := read.spanSign_eq
    rw [htrim, read'.spanSign_eq] at hspan
    exact (Prod.mk.inj hspan).2.symm
  have hdigits : read.digits = read'.digits := by
    rw [← read.takeWhile_eq, hbehind, read'.takeWhile_eq]
  have hrest : read.rest = read'.rest := by
    rw [hdigits] at hbehind
    exact List.append_cancel_left hbehind
  have hsign : read.sign = read'.sign := by
    rw [hbehind] at htrim
    exact List.append_cancel_right htrim
  have hblanks : read.blanks = read'.blanks := by
    have htext := read.text_eq.symm.trans read'.text_eq
    rw [hsign, hbehind] at htext
    exact List.append_cancel_right htext
  exact IntegerPrefix.ext hblanks hsign hdigits hrest

/-- Every text is taken apart. -/
def ofText (radix : Nat) (text : List Char) : IntegerPrefix radix text :=
  let signed := trimLeft text
  let behind := signed.drop (signLength signed)
  have hbehind : behind.takeWhile (fun c => (radixDigit? radix c).isSome) ++
      behind.dropWhile (fun c => (radixDigit? radix c).isSome) = behind := List.takeWhile_append_dropWhile
  have hsigned : signed.take (signLength signed) ++ behind = signed := List.take_append_drop ..
  { blanks := text.takeWhile isBlank
    sign := signed.take (signLength signed)
    digits := behind.takeWhile fun c => (radixDigit? radix c).isSome
    rest := behind.dropWhile fun c => (radixDigit? radix c).isSome
    text_eq := by rw [hbehind, hsigned]; exact List.takeWhile_append_dropWhile.symm
    isBlank_blanks := List.all_eq_true.1 List.all_takeWhile
    sign_mem := take_signLength_mem signed
    isSome_digits := List.all_eq_true.1 List.all_takeWhile
    no_blank := by
      rw [hbehind, hsigned]
      exact head?_dropWhile_any isBlank text
    no_sign := fun hnone => by
      rw [hnone] at hsigned
      rw [hbehind, show behind = signed from hsigned]
      exact head?_not_sign hnone
    no_digit := head?_dropWhile_any _ behind }

/-- Scripts read the integer of the parts if its magnitude is below the limit. -/
theorem leadingInteger_eq {text : String} (read : IntegerPrefix radix text.toList) (hlow : 2 ≤ radix)
    (hhigh : radix ≤ 36) :
    leadingInteger text radix = if read.magnitude < Nat.pow 2 63 then read.value else .nan := by
  unfold leadingInteger
  simp only [if_pos (And.intro hlow hhigh), read.trimLeft_eq, read.spanSign_eq, read.takeWhile_eq]
  by_cases hdigits : read.digits = []
  · rw [value, if_pos hdigits, ite_self, readRadix?, if_pos hdigits]
    rfl
  · have hread : readRadix? radix read.digits = some read.magnitude := readRadix?_eq hdigits read.isSome_digits
    rw [hread, value, if_neg hdigits]
    by_cases hsmall : read.magnitude < Nat.pow 2 63
    · rw [if_pos hsmall, Option.filter_some_pos (p := fun n => decide (n < Nat.pow 2 63)) (decide_eq_true hsmall)]
    · rw [if_neg hsmall, Option.filter_some_neg (p := fun n => decide (n < Nat.pow 2 63)) (decide_eq_false hsmall)]

theorem value_eq_nan_iff (read : IntegerPrefix radix text) : read.value = .nan ↔ read.digits = [] := by
  refine ⟨fun hnan => ?_, fun hdigits => if_pos hdigits⟩
  by_contra hdigits
  have hreal : (Double.ofWhole (read.sign = ['-']) read.magnitude).isNan = false := Double.isNan_nearest ..
  rw [value, if_neg hdigits] at hnan
  rw [hnan] at hreal
  cases hreal

theorem magnitude_of_no_digits (read : IntegerPrefix radix text) (h : read.digits = []) : read.magnitude = 0 := by
  rw [magnitude, h]
  rfl

end IntegerPrefix

/-- Every text has exactly one integer at its start, and scripts read it exactly if it needs no more than 63 bits: they
find none where there is none, and also where there are digits that count more. -/
theorem leadingInteger_iff (text : String) {radix : Nat} (hlow : 2 ≤ radix) (hhigh : radix ≤ 36) :
    ∃ read : IntegerPrefix radix text.toList, (∀ other : IntegerPrefix radix text.toList, other = read) ∧
      (leadingInteger text radix = read.value ↔ read.magnitude < Nat.pow 2 63) ∧
      (leadingInteger text radix = .nan ↔ read.digits = [] ∨ Nat.pow 2 63 ≤ read.magnitude) := by
  refine ⟨.ofText radix text.toList, fun other => other.eq _, ?_⟩
  generalize IntegerPrefix.ofText radix text.toList = read
  rw [read.leadingInteger_eq hlow hhigh]
  by_cases hsmall : read.magnitude < Nat.pow 2 63
  · rw [if_pos hsmall, read.value_eq_nan_iff]
    exact ⟨iff_of_true rfl hsmall, (or_iff_left (Nat.not_le.2 hsmall)).symm⟩
  · have hdigits : read.digits ≠ [] := fun hnone => hsmall (by rw [read.magnitude_of_no_digits hnone]; decide)
    have hreal : (Double.nan = read.value) ↔ False :=
      iff_false_intro fun hnan => hdigits (read.value_eq_nan_iff.1 hnan.symm)
    rw [if_neg hsmall, hreal]
    exact ⟨(iff_false_intro hsmall).symm, iff_of_true rfl (.inr (Nat.not_lt.1 hsmall))⟩

/-- The greatest integer that is read, with hexadecimal digits of both cases and more text behind them. -/
theorem leadingInteger_iff_greatest :
    (2 ≤ 16 ∧ 16 ≤ 36) ∧
      (∃ read : IntegerPrefix 16 "  +7fffFFFFffffffffg".toList,
        (∀ other : IntegerPrefix 16 "  +7fffFFFFffffffffg".toList, other = read) ∧
        (leadingInteger "  +7fffFFFFffffffffg" 16 = read.value ↔ read.magnitude < Nat.pow 2 63) ∧
        (leadingInteger "  +7fffFFFFffffffffg" 16 = .nan ↔ read.digits = [] ∨ Nat.pow 2 63 ≤ read.magnitude)) :=
  ⟨by decide, leadingInteger_iff "  +7fffFFFFffffffffg" (by decide) (by decide)⟩

/-- There is no integer for a text of digits from the limit on. -/
theorem long_integer_is_not_read :
    leadingInteger "9223372036854775808" 10 = .nan ∧
      (IntegerPrefix.ofText 10 "9223372036854775808".toList).digits = "9223372036854775808".toList ∧
      (IntegerPrefix.ofText 10 "9223372036854775808".toList).value ≠ .nan := by
  have hdigits : (IntegerPrefix.ofText 10 "9223372036854775808".toList).digits = "9223372036854775808".toList := by
    decide +kernel
  refine ⟨by decide +kernel, hdigits, fun hnan => ?_⟩
  rw [IntegerPrefix.value_eq_nan_iff, hdigits] at hnan
  exact absurd hnan (by decide)

end SequenceNotation.Script
