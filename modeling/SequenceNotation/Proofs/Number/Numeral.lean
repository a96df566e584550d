import SequenceNotation.Number.Decimal
import SequenceNotation.Text.Digit
import Mathlib.Data.List.Induction
import Mathlib.Tactic.SplitIfs

/-!
# Numerals of a radix

The numeral of a number reads back as this number, with zeros in front of it and in either letter case.  A numeral that
is read comes back up to letter case, if it is padded to its own width.
-/

namespace SequenceNotation.Text

open SequenceNotation.Number

/-- What the digits of a radix count together. -/
def numeralValue (radix : Nat) (digits : List Char) : Nat :=
  digits.foldl (fun n c => n * radix + (digitValue? c).getD 0) 0

/-! ### Digits -/

/-- The greatest radix whose numerals are in use. -/
def maxRadix : Nat := 16

theorem exists_digit_of_radixDigit? {radix : Nat} {c : Char} (h : (radixDigit? radix c).isSome) :
    ∃ digit, digitValue? c = some digit ∧ digit < radix := by
  obtain ⟨digit, hdigit⟩ := Option.isSome_iff_exists.1 h
  obtain ⟨hvalue, hlt⟩ := Option.filter_eq_some_iff.1 hdigit
  exact ⟨digit, hvalue, of_decide_eq_true hlt⟩

theorem radixDigit?_of_lt {radix digit : Nat} {c : Char} (h : digitValue? c = some digit) (hlt : digit < radix) :
    radixDigit? radix c = some digit := by
  rw [radixDigit?, h, Option.filter_some, if_pos (decide_eq_true hlt)]

/-- The digits of a number count what they should in either letter case. -/
theorem digitValue?_digitChar {digit : Nat} (h : digit < maxRadix) :
    digitValue? digit.digitChar = some digit ∧ digitValue? digit.digitChar.toUpper = some digit := by
  have hall : ∀ digit < maxRadix,
      digitValue? digit.digitChar = some digit ∧ digitValue? digit.digitChar.toUpper = some digit := by
    decide
  exact hall digit h

/-- The digits of a number are small, and become capital. -/
theorem case_digitChar {digit : Nat} (h : digit < maxRadix) :
    digit.digitChar.isUpper = false ∧ digit.digitChar.toUpper.isLower = false ∧
      digit.digitChar.toLower = digit.digitChar ∧ digit.digitChar.toUpper.toLower = digit.digitChar := by
  have hall : ∀ digit < maxRadix,
      digit.digitChar.isUpper = false ∧ digit.digitChar.toUpper.isLower = false ∧
        digit.digitChar.toLower = digit.digitChar ∧ digit.digitChar.toUpper.toLower = digit.digitChar := by
    decide
  exact hall digit h

/-- The digits of all radices in use. -/
def hexDigits : List Char :=
  ['0', '1', '2', '3', '4', '5', '6', '7', '8', '9', 'a', 'b', 'c', 'd', 'e', 'f', 'A', 'B', 'C', 'D', 'E', 'F']

theorem mem_hexDigits {c : Char} {digit : Nat} (h : digitValue? c = some digit) (hlt : digit < maxRadix) :
    c ∈ hexDigits := by
  have hall : ∀ n < 103, ∀ digit ∈ digitValue? (Char.ofNat n), digit < maxRadix → Char.ofNat n ∈ hexDigits := by
    decide
  have hsmall : c.toNat < 103 := by
    have hlower : 'a'.toNat = 97 := rfl
    have hupper : 'A'.toNat = 65 := rfl
    unfold maxRadix at hlt
    unfold digitValue? at h
    split_ifs at h with hdigit
    · have hnine := UInt32.le_iff_toNat_le.1 (of_decide_eq_true (Bool.and_eq_true_iff.1 hdigit).2)
      exact Nat.lt_of_le_of_lt hnine (by decide)
    · cases h
      omega
    · cases h
      omega
  have hown := hall c.toNat hsmall digit
  rw [Char.ofNat_toNat] at hown
  exact hown h hlt

/-- A digit that is read is the one of its value up to letter case. -/
theorem digitChar_of_digitValue? {c : Char} {digit : Nat} (h : digitValue? c = some digit) (hlt : digit < maxRadix) :
    digit.digitChar = c.toLower ∧ (c.toLower = '0' → c = '0') := by
  have hall : ∀ c ∈ hexDigits, ∀ digit ∈ digitValue? c,
      digit.digitChar = c.toLower ∧ (c.toLower = '0' → c = '0') :=
    forall_of_all (by decide)
  exact hall c (mem_hexDigits h hlt) digit h

/-! ### Reading numerals -/

theorem readRadix?_eq {radix : Nat} {digits : List Char} (hne : digits ≠ [])
    (hall : ∀ c ∈ digits, (radixDigit? radix c).isSome) : readRadix? radix digits = some (numeralValue radix digits) := by
  have hmap : digits.mapM (radixDigit? radix) = some (digits.map fun c => (digitValue? c).getD 0) := by
    clear hne
    induction digits with
    | nil => rfl
    | cons c digits ih =>
      obtain ⟨hc, hrest⟩ := List.forall_mem_cons.1 hall
      obtain ⟨digit, hdigit, hlt⟩ := exists_digit_of_radixDigit? hc
      rw [List.mapM_cons, radixDigit?_of_lt hdigit hlt, ih hrest, List.map_cons, hdigit]
      rfl
  rw [readRadix?, if_neg hne, hmap, Option.map_some, List.foldl_map]
  rfl

theorem numeralValue_concat (radix : Nat) (digits : List Char) (c : Char) :
    numeralValue radix (digits ++ [c]) = numeralValue radix digits * radix + (digitValue? c).getD 0 := by
  unfold numeralValue
  rw [List.foldl_append]
  rfl

theorem numeralValue_eq_zero (radix : Nat) {digits : List Char} (h : ∀ c ∈ digits, (digitValue? c).getD 0 = 0) :
    numeralValue radix digits = 0 := by
  induction digits using List.reverseRecOn with
  | nil => rfl
  | append_singleton digits c ih =>
    rw [numeralValue_concat, ih fun c hc => h c (List.mem_append_left _ hc),
      h c (List.mem_append_right _ List.mem_cons_self), Nat.zero_mul]

theorem numeralValue_zeroPadded (radix width : Nat) (digits : List Char) :
    numeralValue radix (zeroPadded width digits) = numeralValue radix digits := by
  have hzeros (count : Nat) : numeralValue radix (List.replicate count '0') = 0 :=
    numeralValue_eq_zero radix fun c hc => by
      rw [List.eq_of_mem_replicate hc]
      rfl
  unfold zeroPadded numeralValue
  rw [List.foldl_append]
  exact congrArg (fun n => digits.foldl (fun n c => n * radix + (digitValue? c).getD 0) n) (hzeros _)

/-! ### Writing numerals -/

section Radix

variable {radix : Nat}

/-- A numeral consists of digits of its radix. -/
theorem exists_digitChar_of_mem_toDigits (hradix : 1 < radix) {n : Nat} {c : Char} (h : c ∈ Nat.toDigits radix n) :
    ∃ digit < radix, c = digit.digitChar := by
  induction n using Nat.strongRecOn with
  | ind n ih =>
    rcases Nat.lt_or_ge n radix with hlt | hge
    · rw [Nat.toDigits_of_lt_base hlt] at h
      exact ⟨n, hlt, List.mem_singleton.1 h⟩
    · rw [Nat.toDigits_of_base_le hradix hge] at h
      rcases List.mem_append.1 h with hfront | hlast
      · exact ih (n / radix) (Nat.div_lt_self (by omega) hradix) hfront
      · exact ⟨n % radix, Nat.mod_lt n (by omega), List.mem_singleton.1 hlast⟩

/-- A character of a padded numeral is a digit, capital or not. -/
theorem exists_digitChar_of_mem (hradix : 1 < radix) {width n : Nat} {upper : Bool} {c : Char}
    (h : c ∈ zeroPadded width (radixNumeral radix upper n)) :
    ∃ digit < radix, c = if upper then digit.digitChar.toUpper else digit.digitChar := by
  rcases List.mem_append.1 h with hzero | hdigit
  · refine ⟨0, by omega, ?_⟩
    rw [List.eq_of_mem_replicate hzero]
    cases upper <;> rfl
  · obtain ⟨own, hown, rfl⟩ := List.mem_map.1 hdigit
    obtain ⟨digit, hlt, rfl⟩ := exists_digitChar_of_mem_toDigits hradix hown
    exact ⟨digit, hlt, rfl⟩

theorem digitValue?_case {digit : Nat} (h : digit < maxRadix) (upper : Bool) :
    digitValue? (if upper then digit.digitChar.toUpper else digit.digitChar) = some digit := by
  cases upper
  · exact (digitValue?_digitChar h).1
  · exact (digitValue?_digitChar h).2

theorem numeralValue_radixNumeral (hradix : 1 < radix) (hmax : radix ≤ maxRadix) (upper : Bool) (n : Nat) :
    numeralValue radix (radixNumeral radix upper n) = n := by
  unfold radixNumeral
  induction n using Nat.strongRecOn with
  | ind n ih =>
    rcases Nat.lt_or_ge n radix with hlt | hge
    · rw [Nat.toDigits_of_lt_base hlt, List.map_singleton, ← List.nil_append [_], numeralValue_concat,
        digitValue?_case (Nat.lt_of_lt_of_le hlt hmax)]
      exact (congrArg (· + n) (Nat.zero_mul radix)).trans (Nat.zero_add n)
    · have hdigit : n % radix < maxRadix := Nat.lt_of_lt_of_le (Nat.mod_lt n (by omega)) hmax
      rw [Nat.toDigits_of_base_le hradix hge, List.map_append, List.map_singleton, numeralValue_concat,
        digitValue?_case hdigit, ih (n / radix) (Nat.div_lt_self (by omega) hradix)]
      exact Nat.div_add_mod' n radix

/-- Only the numeral of zero begins with a zero. -/
theorem eq_zero_of_head?_radixNumeral (hradix : 1 < radix) (hmax : radix ≤ maxRadix) {upper : Bool} {n : Nat}
    (h : (radixNumeral radix upper n).head? = some '0') : n = 0 := by
  unfold radixNumeral at h
  induction n using Nat.strongRecOn with
  | ind n ih =>
    rcases Nat.lt_or_ge n radix with hlt | hge
    · rw [Nat.toDigits_of_lt_base hlt, List.map_singleton, List.head?_cons, Option.some.injEq] at h
      have hvalue := digitValue?_case (Nat.lt_of_lt_of_le hlt hmax) upper
      rw [h] at hvalue
      exact (Option.some.inj hvalue).symm
    · have hne : (Nat.toDigits radix (n / radix)).map (fun c => if upper then c.toUpper else c) ≠ [] :=
        fun hnil => Nat.toDigits_ne_nil (List.map_eq_nil_iff.1 hnil)
      rw [Nat.toDigits_of_base_le hradix hge, List.map_append, List.head?_append,
        Option.or_of_isSome (List.isSome_head?.2 hne)] at h
      have hquotient := ih (n / radix) (Nat.div_lt_self (by omega) hradix) h
      exact absurd (Nat.div_pos hge (by omega)) (by omega)

theorem isSome_radixDigit?_of_mem (hradix : 1 < radix) (hmax : radix ≤ maxRadix) {width n : Nat} {upper : Bool}
    {c : Char} (h : c ∈ zeroPadded width (radixNumeral radix upper n)) : (radixDigit? radix c).isSome = true := by
  obtain ⟨digit, hlt, rfl⟩ := exists_digitChar_of_mem hradix h
  rw [radixDigit?_of_lt (digitValue?_case (Nat.lt_of_lt_of_le hlt hmax) upper) hlt]
  rfl

theorem readRadix?_zeroPadded (hradix : 1 < radix) (hmax : radix ≤ maxRadix) (width : Nat) (upper : Bool) (n : Nat) :
    readRadix? radix (zeroPadded width (radixNumeral radix upper n)) = some n := by
  have hne : zeroPadded width (radixNumeral radix upper n) ≠ [] := by
    intro hnil
    exact Nat.toDigits_ne_nil (List.map_eq_nil_iff.1 (List.append_eq_nil_iff.1 hnil).2)
  rw [readRadix?_eq hne fun c => isSome_radixDigit?_of_mem hradix hmax, numeralValue_zeroPadded,
    numeralValue_radixNumeral hradix hmax]

/-- The letters of a numeral are all small or all capital. -/
theorem case_zeroPadded (hradix : 1 < radix) (hmax : radix ≤ maxRadix) (width : Nat) (upper : Bool) (n : Nat) :
    ∀ c ∈ zeroPadded width (radixNumeral radix upper n), (if upper then c.isLower else c.isUpper) = false := by
  intro c hc
  obtain ⟨digit, hlt, rfl⟩ := exists_digitChar_of_mem hradix hc
  obtain ⟨hsmall, hcapital, -⟩ := case_digitChar (Nat.lt_of_lt_of_le hlt hmax)
  cases upper
  · exact hsmall
  · exact hcapital

/-- In small letters a padded numeral is the same in either case. -/
theorem map_toLower_zeroPadded (hradix : 1 < radix) (hmax : radix ≤ maxRadix) (width : Nat) (upper : Bool) (n : Nat) :
    (zeroPadded width (radixNumeral radix upper n)).map Char.toLower = zeroPadded width (Nat.toDigits radix n) := by
  have hown : (radixNumeral radix upper n).map Char.toLower = Nat.toDigits radix n := by
    unfold radixNumeral
    rw [List.map_map]
    refine (List.map_congr_left fun c hc => ?_).trans (List.map_id _)
    obtain ⟨digit, hlt, rfl⟩ := exists_digitChar_of_mem_toDigits hradix hc
    obtain ⟨-, -, hsmall, hcapital⟩ := case_digitChar (Nat.lt_of_lt_of_le hlt hmax)
    cases upper
    · exact hsmall
    · exact hcapital
  unfold zeroPadded
  rw [List.map_append, hown, List.map_replicate, radixNumeral, List.length_map]
  rfl

/-! ### Numerals that are written again -/

theorem toDigits_numeralValue_concat (hradix : 1 < radix) (digits : List Char) {c : Char} {digit : Nat}
    (hc : digitValue? c = some digit) (hlt : digit < radix) :
    Nat.toDigits radix (numeralValue radix (digits ++ [c])) =
      if numeralValue radix digits = 0 then [digit.digitChar]
      else Nat.toDigits radix (numeralValue radix digits) ++ [digit.digitChar] := by
  rw [numeralValue_concat, hc, Option.getD_some, Nat.mul_comm]
  split
  · rename_i hzero
    rw [hzero, Nat.mul_zero, Nat.zero_add, Nat.toDigits_of_lt_base hlt]
  · rename_i hpos
    rw [← Nat.toDigits_append_toDigits hradix (Nat.pos_of_ne_zero hpos) hlt, Nat.toDigits_of_lt_base hlt]

theorem zeroPadded_of_le {width : Nat} {digits : List Char} (h : width ≤ digits.length) :
    zeroPadded width digits = digits := by
  rw [zeroPadded, Nat.sub_eq_zero_of_le h, List.replicate_zero, List.nil_append]

theorem zeroPadded_concat (width : Nat) (digits : List Char) (c : Char) :
    zeroPadded (width + 1) (digits ++ [c]) = zeroPadded width digits ++ [c] := by
  unfold zeroPadded
  rw [List.length_append, List.length_singleton, Nat.add_sub_add_right, List.append_assoc]

theorem zeroPadded_zero {width : Nat} (h : 0 < width) : zeroPadded width ['0'] = zeroPadded width [] := by
  obtain ⟨count, rfl⟩ := Nat.exists_eq_succ_of_ne_zero (Nat.ne_of_gt h)
  unfold zeroPadded
  rw [List.length_nil, Nat.sub_zero, List.length_singleton, Nat.succ_sub_one, List.append_nil, List.replicate_succ']

/-- The numeral of what digits count, padded to their width, has these digits in small letters. -/
theorem zeroPadded_toDigits (hradix : 1 < radix) (hmax : radix ≤ maxRadix) {digits : List Char} (hne : digits ≠ [])
    (hall : ∀ c ∈ digits, (radixDigit? radix c).isSome) :
    zeroPadded digits.length (Nat.toDigits radix (numeralValue radix digits)) = digits.map Char.toLower := by
  induction digits using List.reverseRecOn with
  | nil => exact absurd rfl hne
  | append_singleton digits c ih =>
    obtain ⟨digit, hc, hlt⟩ := exists_digit_of_radixDigit? (hall c (List.mem_append_right _ List.mem_cons_self))
    obtain ⟨hsmall, -⟩ := digitChar_of_digitValue? hc (Nat.lt_of_lt_of_le hlt hmax)
    have hfront (h : digits ≠ []) := ih h fun c hc => hall c (List.mem_append_left _ hc)
    rw [toDigits_numeralValue_concat hradix digits hc hlt, List.length_append, List.length_singleton, List.map_append,
      List.map_singleton, hsmall]
    split
    · -- all digits in front are zeros, and the padding has as many of them
      rename_i hzero
      rw [← List.nil_append [c.toLower], zeroPadded_concat]
      rcases Decidable.eq_or_ne digits [] with rfl | hnil
      · rfl
      · rw [← hfront hnil, hzero, Nat.toDigits_of_lt_base (by omega)]
        exact congrArg (· ++ [c.toLower]) (zeroPadded_zero (List.length_pos_iff.2 hnil)).symm
    · rename_i hpos
      have hnil : digits ≠ [] := by
        rintro rfl
        exact hpos rfl
      rw [zeroPadded_concat, hfront hnil]

/-- Digits that do not begin with a zero, or a single one, need no padding. -/
theorem toDigits_numeralValue (hradix : 1 < radix) (hmax : radix ≤ maxRadix) {digits : List Char} (hne : digits ≠ [])
    (hall : ∀ c ∈ digits, (radixDigit? radix c).isSome) (hwidth : ¬(1 < digits.length ∧ digits.head? = some '0')) :
    Nat.toDigits radix (numeralValue radix digits) = digits.map Char.toLower := by
  have hpadded := zeroPadded_toDigits hradix hmax hne hall
  have hwritten : 0 < (Nat.toDigits radix (numeralValue radix digits)).length := Nat.length_toDigits_pos
  generalize Nat.toDigits radix (numeralValue radix digits) = written at hpadded hwritten ⊢
  rcases Nat.lt_or_ge written.length digits.length with hlt | hge
  · -- the padding would be a zero in front of the digits
    obtain ⟨d, rest, rfl⟩ := List.exists_cons_of_ne_nil hne
    obtain ⟨digit, hd, hdigit⟩ := exists_digit_of_radixDigit? (hall d List.mem_cons_self)
    obtain ⟨count, hcount⟩ := Nat.exists_eq_succ_of_ne_zero (Nat.sub_ne_zero_of_lt hlt)
    rw [zeroPadded, hcount, List.replicate_succ, List.cons_append, List.map_cons] at hpadded
    obtain rfl := (digitChar_of_digitValue? hd (Nat.lt_of_lt_of_le hdigit hmax)).2 (List.cons.inj hpadded).1.symm
    exact absurd ⟨by omega, rfl⟩ hwidth
  · rwa [zeroPadded_of_le hge] at hpadded

end Radix

end SequenceNotation.Text
