import SequenceNotation.Number.Reading
import SequenceNotation.Proofs.Number.Basin
import SequenceNotation.Proofs.Number.Text

/-!
# Printed numbers read back

The digits of a finite number, read again, are the number without its sign.  What is read has another
significand and another exponent than what was printed, but the same value, and it is rounded to the double
in whose basin this value lies.
-/

namespace SequenceNotation.Number

/-! ### Decimals of ordinary size -/

theorem two_pow_le_ten_pow {a k : Nat} (h : a ≤ 3 * k) : 2 ^ a ≤ 10 ^ k := by
  calc 2 ^ a ≤ 2 ^ (3 * k) := Nat.pow_le_pow_right (by decide) h
    _ = 8 ^ k := Nat.pow_mul 2 3 k
    _ ≤ 10 ^ k := Nat.pow_le_pow_left (by decide) k

/-- A significand of so many digits lies below the power of ten with this exponent. -/
theorem value_lt (significand : Nat) (exponent : Int) :
    (⟨significand, exponent⟩ : Decimal).value < 10 ^ (exponent + digitCount significand) := by
  have hlt : (significand : ℚ) < 10 ^ digitCount significand := by
    exact_mod_cast lt_ten_pow_digitCount significand
  unfold Decimal.value
  rw [zpow_add₀ (by norm_num), zpow_natCast, mul_comm]
  gcongr

theorem ten_zpow_le_value {significand : Nat} (exponent : Int) (h : 0 < significand) :
    (10 : ℚ) ^ (exponent + digitCount significand - 1) ≤ (⟨significand, exponent⟩ : Decimal).value := by
  have hle : (10 : ℚ) ^ (digitCount significand - 1) ≤ significand := by exact_mod_cast ten_pow_le h
  have hcount : 0 < digitCount significand := Nat.length_toDigits_pos
  have hexponent : exponent + digitCount significand - 1 = exponent + (digitCount significand - 1 : Nat) := by
    omega
  unfold Decimal.value
  rw [hexponent, zpow_add₀ (by norm_num), zpow_natCast, mul_comm]
  gcongr

/-- Powers of ten beyond all doubles, and below all of them. -/
theorem unitsPerOne_le {k : Nat} (hk : 359 ≤ k) : 2 * Double.unitsPerOne ≤ 10 ^ k := by
  unfold Double.unitsPerOne
  generalize ha : 1074 = a
  calc 2 * 2 ^ a = 2 ^ (a + 1) := (Nat.pow_succ').symm
    _ ≤ 10 ^ k := two_pow_le_ten_pow (by omega)

theorem unitsLimit_le {k : Nat} (hk : 359 ≤ k) : 2 * unitsLimit ≤ 10 ^ k * Double.unitsPerOne := by
  unfold unitsLimit Double.unitsPerOne
  generalize ha : 2098 = a
  generalize hb : 1074 = b
  have hpow : 2 ^ (a - b + 1) ≤ 10 ^ k := two_pow_le_ten_pow (by omega)
  calc 2 * 2 ^ a = 2 ^ (a - b + 1) * 2 ^ b := by
        rw [← Nat.pow_succ', ← Nat.pow_add]
        congr 1
        omega
    _ ≤ 10 ^ k * 2 ^ b := Nat.mul_le_mul_right _ hpow

/-- A basin lies between half a unit and one and a half of the limit, in quarters of a unit. -/
theorem bounds_of_mem_basin {units : Nat} (hgrid : OnGrid units) (hunits : 0 < units) {x : ℚ}
    (h : (basin units).Contains x) : 2 ≤ x ∧ x < 6 * unitsLimit := by
  have hle := Nat.le_of_dvd hunits hgrid.1
  constructor
  · have hlow := low_basin hgrid hunits
    have hreach : lowerReach units ≤ 2 * spacing units := by
      unfold lowerReach
      dsimp only
      split <;> omega
    have htwo : 2 ≤ (basin units).low := by omega
    exact le_trans (by exact_mod_cast htwo) h.low_le
  · have hsix : (basin units).high < 6 * unitsLimit := by
      show 4 * units + 2 * spacing units < 6 * unitsLimit
      have hlimit := hgrid.2
      omega
    exact lt_of_le_of_lt h.le_high (by exact_mod_cast hsix)

/-- What lies in the basin of a double is neither too small nor too large to be read. -/
theorem magnitude_of_contains {units significand : Nat} {exponent : Int} (hgrid : OnGrid units)
    (hunits : 0 < units)
    (h : (basin units).Contains (4 * Double.unitsPerOne * (⟨significand, exponent⟩ : Decimal).value)) {k : Nat}
    (hk : 359 ≤ k) :
    significand ≠ 0 ∧ -(k : Int) ≤ exponent + digitCount significand ∧
      exponent + digitCount significand ≤ k := by
  obtain ⟨hlow, hhigh⟩ := bounds_of_mem_basin hgrid hunits h
  have hone : (0 : ℚ) < Double.unitsPerOne := by exact_mod_cast unitsPerOne_pos
  have hten : (0 : ℚ) < 10 ^ k := by positivity
  have hsignificand : significand ≠ 0 := by
    rintro rfl
    unfold Decimal.value at hlow
    rw [Nat.cast_zero, zero_mul, mul_zero] at hlow
    exact absurd hlow (by norm_num)
  refine ⟨hsignificand, ?_, ?_⟩
  · -- otherwise its value would be below half of a unit
    by_contra hsmall
    have hvalue : (⟨significand, exponent⟩ : Decimal).value < (10 ^ k)⁻¹ := by
      calc (⟨significand, exponent⟩ : Decimal).value
          < 10 ^ (exponent + digitCount significand) := value_lt significand exponent
        _ ≤ 10 ^ (-(k : ℤ)) := zpow_le_zpow_right₀ (by norm_num) (by omega)
        _ = (10 ^ k)⁻¹ := by rw [zpow_neg, zpow_natCast]
    have hunit : (2 : ℚ) * Double.unitsPerOne ≤ 10 ^ k := by exact_mod_cast unitsPerOne_le hk
    have hinv : (2 : ℚ) * Double.unitsPerOne * (10 ^ k)⁻¹ ≤ 1 := by
      rw [mul_inv_le_iff₀ hten, one_mul]
      exact hunit
    have hless := mul_lt_mul_of_pos_left hvalue hone
    linarith
  · -- otherwise its value would be beyond all doubles
    by_contra hlarge
    have hvalue : (10 : ℚ) ^ k ≤ (⟨significand, exponent⟩ : Decimal).value := by
      calc (10 : ℚ) ^ k = 10 ^ (k : ℤ) := (zpow_natCast _ _).symm
        _ ≤ 10 ^ (exponent + digitCount significand - 1) := zpow_le_zpow_right₀ (by norm_num) (by omega)
        _ ≤ (⟨significand, exponent⟩ : Decimal).value :=
          ten_zpow_le_value exponent (Nat.pos_of_ne_zero hsignificand)
    have hlimit : (2 : ℚ) * unitsLimit ≤ 10 ^ k * Double.unitsPerOne := by exact_mod_cast unitsLimit_le hk
    have hmore := mul_le_mul_of_nonneg_left hvalue hone.le
    have hpos := mul_pos hten hone
    linarith

/-- A decimal in the basin of a double is read as this double. -/
theorem nearestDecimal_of_contains {units significand : Nat} {exponent : Int} (negative : Bool)
    (hgrid : OnGrid units) (hunits : 0 < units)
    (h : (basin units).Contains (4 * Double.unitsPerOne * (⟨significand, exponent⟩ : Decimal).value)) :
    nearestDecimal negative significand exponent = .finite negative units hgrid := by
  have hnearest {num den : Nat} (hden : 0 < den)
      (hvalue : 4 * Double.unitsPerOne * (⟨significand, exponent⟩ : Decimal).value = ((4 * num : Nat) : ℚ) / den) :
      Double.nearest negative num den = .finite negative units hgrid := by
    rw [hvalue] at h
    exact (Double.exists_nearest (nearestUnits_of_contains hgrid hunits hden h) hgrid.2).2
  -- so it is read as a quotient, with the power of ten above or below
  obtain ⟨hsignificand, hsmall, hlarge⟩ := magnitude_of_contains hgrid hunits h (show 359 ≤ 400 by decide)
  have hmin : ¬(significand = 0 ∨ exponent + digitCount significand < -400) := by omega
  have hmax : ¬400 < exponent + digitCount significand := by omega
  unfold nearestDecimal
  dsimp only
  rw [if_neg hmin, if_neg hmax]
  split
  · rename_i hpos
    apply hnearest Nat.one_pos
    obtain ⟨n, rfl⟩ := Int.eq_ofNat_of_zero_le hpos
    unfold Decimal.value
    simp only [Int.toNat_natCast, zpow_natCast, Nat.pow_eq]
    push_cast
    ring
  · rename_i hneg
    apply hnearest (Nat.pow_pos (by decide))
    obtain ⟨n, hn⟩ := Int.eq_ofNat_of_zero_le (show 0 ≤ -exponent by omega)
    obtain rfl : exponent = -(n : Int) := by omega
    unfold Decimal.value
    simp only [neg_neg, Int.toNat_natCast, zpow_neg, zpow_natCast]
    push_cast
    ring

/-! ### Reading digits -/

theorem digitsValue_eq (digits : List Char) : digitsValue digits = Nat.ofDigitChars 10 digits 0 := by
  rw [Nat.ofDigitChars_eq_foldl]
  unfold digitsValue
  simp only [Nat.mul_comm]

theorem digitsValue_decimalDigits (n : Nat) : digitsValue (decimalDigits n) = n := by
  rw [digitsValue_eq]
  exact Nat.ofDigitChars_ten_toDigits

theorem digitsValue_zeroPadded (width : Nat) (digits : List Char) :
    digitsValue (zeroPadded width digits) = digitsValue digits := by
  unfold zeroPadded
  rw [digitsValue_eq, digitsValue_eq, Nat.ofDigitChars_append, Nat.ofDigitChars_replicate_zero, Nat.mul_zero]

theorem digitsValue_append_zeros (digits : List Char) (count : Nat) :
    digitsValue (digits ++ List.replicate count '0') = 10 ^ count * digitsValue digits := by
  rw [digitsValue_eq, digitsValue_eq, Nat.ofDigitChars_append, Nat.ofDigitChars_replicate_zero]

/-- What has a property in front is cut off where the text behind it begins without. -/
theorem span_append_of_head {p : Char → Bool} {front back : List Char} (hfront : ∀ c ∈ front, p c = true)
    (hback : ∀ c ∈ back.head?, p c = false) : (front ++ back).span p = (front, back) := by
  rw [List.span_eq_takeWhile_dropWhile, List.takeWhile_append_of_pos hfront, List.dropWhile_append_of_pos hfront]
  cases back with
  | nil => rw [List.takeWhile_nil, List.dropWhile_nil, List.append_nil]
  | cons c back =>
    have hc : ¬p c = true := Bool.eq_false_iff.1 (hback c rfl)
    rw [List.takeWhile_cons_of_neg hc, List.dropWhile_cons_of_neg hc, List.append_nil]

theorem spanDigits_eq {digits : List Char} (hall : ∀ c ∈ digits, c.isDigit = true)
    (tail : List Char) (htail : tail.head?.any Char.isDigit = false) :
    spanDigits (digits ++ tail) = (digits, tail) :=
  span_append_of_head hall fun c hc => by rwa [Option.mem_def.1 hc] at htail

/-- The point and the digits behind it, if there are any. -/
def fractionText : Option (List Char) → List Char
  | some digits => '.' :: digits
  | none => []

/-- A number is read as its digits, and as the exponent that what follows them is. -/
theorem readUnsigned_parts (negative : Bool) {whole : List Char} {places : Option (List Char)}
    (hwhole : ∀ c ∈ whole, c.isDigit = true) (hplaces : ∀ digits ∈ places, ∀ c ∈ digits, c.isDigit = true)
    (hne : whole ++ places.getD [] ≠ []) {back : List Char} (hdigit : back.head?.any Char.isDigit = false)
    (hpoint : back.head? ≠ some '.') :
    readUnsigned negative (whole ++ (fractionText places ++ back)) =
      (readExponent back).map fun exponent =>
        nearestDecimal negative (digitsValue (whole ++ places.getD [])) (exponent - ((places.getD []).length : Int)) := by
  cases places with
  | none =>
    have hspan := spanDigits_eq hwhole back hdigit
    have hsome : whole ≠ [] := by simpa using hne
    cases back with
    | nil =>
      rw [List.append_nil] at hspan
      simp [readUnsigned, hspan, fractionText, hsome]
    | cons c rest =>
      have hc : c ≠ '.' := fun hc => hpoint (congrArg some hc)
      simp [readUnsigned, hspan, fractionText, hsome, hc]
  | some digits =>
    have hspan := spanDigits_eq hwhole ('.' :: (digits ++ back)) rfl
    have hspan' := spanDigits_eq (hplaces digits rfl) back hdigit
    have hsome : ¬(whole = [] ∧ digits = []) := by simpa using hne
    rw [fractionText, List.cons_append, readUnsigned, hspan]
    simp only [hspan', if_neg hsome, Option.getD_some]

theorem readUnsigned_whole (negative : Bool) {digits : List Char} (hdigits : digits ≠ [])
    (hall : ∀ c ∈ digits, c.isDigit = true) :
    readUnsigned negative digits = some (nearestDecimal negative (digitsValue digits) 0) := by
  have hnone : ∀ places ∈ (none : Option (List Char)), ∀ c ∈ places, c.isDigit = true := by simp
  have hread := @readUnsigned_parts negative digits none hall hnone (by simpa using hdigits) [] rfl (by simp)
  simpa [fractionText, readExponent] using hread

theorem readUnsigned_fraction (negative : Bool) {digits places : List Char} (hdigits : digits ≠ [])
    (hall : ∀ c ∈ digits, c.isDigit = true) (hplaces : ∀ c ∈ places, c.isDigit = true) :
    readUnsigned negative (digits ++ '.' :: places) =
      some (nearestDecimal negative (digitsValue (digits ++ places)) (-(places.length : Int))) := by
  have hsome : ∀ digits ∈ some places, ∀ c ∈ digits, c.isDigit = true := by simpa using hplaces
  have hread := @readUnsigned_parts negative digits (some places) hall hsome (by simp [hdigits]) [] rfl (by simp)
  simpa [fractionText, readExponent] using hread

/-- A text is no number if the character behind its first digits continues none. -/
theorem readUnsigned_stop (negative : Bool) {digits : List Char} (hall : ∀ c ∈ digits, c.isDigit = true) {c : Char}
    (hc : c.isDigit = false) (hpoint : c ≠ '.') (hexponent : c ≠ 'e' ∧ c ≠ 'E') (tail : List Char) :
    readUnsigned negative (digits ++ c :: tail) = none := by
  have hspan := spanDigits_eq hall (c :: tail) hc
  have hnone : readExponent (c :: tail) = none := by simp [readExponent, hexponent]
  simp [readUnsigned, hspan, hpoint, hnone]

/-- A minus sign behind digits is no part of a number. -/
theorem readUnsigned_minus (negative : Bool) {digits : List Char} (hall : ∀ c ∈ digits, c.isDigit = true)
    (tail : List Char) : readUnsigned negative (digits ++ '-' :: tail) = none :=
  readUnsigned_stop negative hall rfl (by decide) (by decide) tail

/-- A decimal written out is read as a decimal of the same value. -/
theorem readUnsigned_positional (negative : Bool) (d : Decimal) :
    ∃ significand exponent, readUnsigned negative d.positional = some (nearestDecimal negative significand exponent) ∧
      (⟨significand, exponent⟩ : Decimal).value = d.value := by
  have hdigits : ∀ c ∈ decimalDigits d.significand, c.isDigit = true := fun _ => isDigit_decimalDigits
  by_cases hexponent : 0 ≤ d.exponent
  · have hne : decimalDigits d.significand ≠ [] := Nat.toDigits_ne_nil
    have hall := isDigit_append_zeros hdigits d.exponent.toNat
    have hpositional : d.positional = decimalDigits d.significand ++ List.replicate d.exponent.toNat '0' :=
      if_pos hexponent
    refine ⟨_, 0, hpositional ▸ readUnsigned_whole negative (by simp [hne]) hall, ?_⟩
    rw [hpositional, digitsValue_append_zeros, digitsValue_decimalDigits]
    obtain ⟨n, hn⟩ := Int.eq_ofNat_of_zero_le hexponent
    unfold Decimal.value
    rw [hn, zpow_natCast, zpow_zero, mul_one, Int.toNat_natCast, mul_comm]
    push_cast
    rfl
  · obtain ⟨digits, places, hpositional, hne, hpadded, hplaces⟩ := Decimal.exists_fraction hexponent
    have hall := @isDigit_zeroPadded (places.length + 1) _ hdigits
    rw [← hpadded] at hall
    refine ⟨_, _, hpositional ▸ readUnsigned_fraction negative hne (fun c hc => hall c (List.mem_append_left _ hc))
      (fun c hc => hall c (List.mem_append_right _ hc)), ?_⟩
    rw [hpadded, digitsValue_zeroPadded, digitsValue_decimalDigits, ← hplaces]

theorem toLower_of_isDigit {c : Char} (h : c.isDigit = true) : c.toLower = c := by
  have hnine : c.val ≤ '9'.val := of_decide_eq_true (Bool.and_eq_true_iff.1 h).2
  have hletter : ¬(c.val ≥ 'A'.val ∧ c.val ≤ 'Z'.val) := fun hupper =>
    absurd (UInt32.le_trans hupper.1 hnine) (by decide)
  exact dif_neg hletter

/-! ### Signs -/

/-- A text that begins with no sign stays as it is. -/
theorem spanSign_of_head {text : List Char} (h : text.head?.any isSign = false) : spanSign text = (false, text) := by
  unfold spanSign
  split
  · cases h
  · cases h
  · rfl

theorem isSign_of_isDigit {c : Char} (h : c.isDigit = true) : isSign c = false := by
  rw [← Bool.not_eq_true]
  intro hsign
  have hc : c = '+' ∨ c = '-' := by simpa [isSign] using hsign
  rcases hc with rfl | rfl <;> cases h

theorem take_signLength_mem (text : List Char) : text.take (signLength text) ∈ [[], ['+'], ['-']] := by
  unfold signLength
  split
  · rename_i hsign
    cases text with
    | nil => cases hsign
    | cons c rest =>
      have hc : c = '+' ∨ c = '-' := by simpa [isSign] using hsign
      rcases hc with rfl | rfl <;> simp
  · exact .head _

theorem head?_not_sign {text : List Char} (h : text.take (signLength text) = []) : text.head?.any isSign = false := by
  cases text with
  | nil => rfl
  | cons c rest =>
    refine Bool.eq_false_iff.2 fun hsign => ?_
    rw [signLength, if_pos hsign, List.take_succ_cons] at h
    exact List.cons_ne_nil c _ h

/-- A sign in front of a digit is read as such, and what begins with a digit is no word for a number. -/
theorem readDouble_signed {text : List Char} (h : ∃ d rest, text = d :: rest ∧ d.isDigit = true) (negative : Bool) :
    readDouble (Double.signed negative text) = readUnsigned negative text := by
  obtain ⟨d, rest, rfl, hd⟩ := h
  have hspan : spanSign (Double.signed negative (d :: rest)) = (negative, d :: rest) := by
    cases negative with
    | true => rfl
    | false => exact spanSign_of_head (isSign_of_isDigit hd)
  have hword {e : Char} {word : List Char} (he : e.isDigit = false) : (d :: rest).map Char.toLower ≠ e :: word := by
    intro heq
    rw [List.map_cons, toLower_of_isDigit hd] at heq
    cases heq
    exact absurd he (by simp [hd])
  have hinfinity : ¬((d :: rest).map Char.toLower = "inf".toList ∨ (d :: rest).map Char.toLower = "infinity".toList) := by
    rintro (heq | heq)
    · exact hword rfl heq
    · exact hword rfl heq
  have hnan : ¬(d :: rest).map Char.toLower = "nan".toList := fun heq => hword rfl heq
  unfold readDouble
  rw [hspan]
  dsimp only
  rw [if_neg hinfinity, if_neg hnan]

/-- A double lies in its own basin. -/
theorem contains_centre {units : Nat} (hgrid : OnGrid units) (hunits : 0 < units) :
    (basin units).Contains ((4 * units : Nat) / (1 : Nat)) := by
  have hlow := low_lt_centre hgrid hunits
  have hhigh := centre_lt_high units
  have hcentre : (basin units).centre = 4 * units := rfl
  rw [Basin.contains_div_iff Nat.one_pos]
  exact ⟨by omega, by omega, by omega⟩

namespace Double

theorem readUnsigned_zero (negative : Bool) (h : OnGrid 0) :
    readUnsigned negative ['0'] = some (finite negative 0 h) := by
  have hread := readUnsigned_whole negative (List.cons_ne_nil '0' []) (by simp)
  have hdecimal : nearestDecimal negative (digitsValue ['0']) 0 = nearest negative 0 1 := by
    unfold nearestDecimal
    exact if_pos (.inl rfl)
  have hnearest : nearestUnits 0 1 = 0 := by simp [nearestUnits, roundHalfEven]
  rw [hread, hdecimal, (exists_nearest hnearest unitsLimit_pos).2]

/-- The digits of a finite number are read as its magnitude. -/
theorem readUnsigned_magnitudeDigits (negative : Bool) {units : Nat} (h : OnGrid units) :
    readUnsigned negative (magnitudeDigits units) = some (finite negative units h) := by
  unfold magnitudeDigits
  split
  · rename_i hzero
    subst hzero
    exact readUnsigned_zero negative h
  · rename_i hunits
    have hpos := Nat.pos_of_ne_zero hunits
    split
    · -- a whole number has all its digits, and is the centre of its basin
      rename_i hwhole
      have hdigits : decimalDigits (units / unitsPerOne) ≠ [] := Nat.toDigits_ne_nil
      rw [readUnsigned_whole negative hdigits fun _ => isDigit_decimalDigits, digitsValue_decimalDigits]
      refine congrArg some (nearestDecimal_of_contains negative h hpos ?_)
      have hvalue : 4 * (unitsPerOne : ℚ) * (⟨units / unitsPerOne, 0⟩ : Decimal).value =
          ((4 * units : Nat) : ℚ) / (1 : Nat) := by
        have hmul : unitsPerOne * (units / unitsPerOne) = units :=
          Nat.mul_div_cancel' (Nat.dvd_of_mod_eq_zero hwhole.1)
        have hcast : (unitsPerOne : ℚ) * (units / unitsPerOne : Nat) = units := by exact_mod_cast hmul
        unfold Decimal.value
        rw [zpow_zero, mul_one, mul_assoc, hcast]
        simp
      rw [hvalue]
      exact contains_centre h hpos
    · -- any other magnitude has the shortest decimal of its basin
      obtain ⟨significand, exponent, hread, hvalue⟩ := readUnsigned_positional negative (shortest units)
      rw [hread]
      refine congrArg some (nearestDecimal_of_contains negative h hpos ?_)
      rw [hvalue]
      exact contains_shortest h hpos

/-- A number whose zero has no sign. -/
def unsignedZero : Double → Double
  | finite negative units h => finite (negative && units ≠ 0) units h
  | other => other

theorem equal_unsignedZero {n : Double} (h : n.isNan = false) : n.unsignedZero.equal n = true := by
  cases n with
  | nan => cases h
  | infinite negative => exact beq_self_eq_true negative
  | finite negative units _ =>
    show (signedUnits (negative && units ≠ 0) units == signedUnits negative units) = true
    by_cases hzero : units = 0 <;> cases negative <;> simp [hzero, signedUnits]

theorem isFinite_unsignedZero (n : Double) : n.unsignedZero.isFinite = n.isFinite := by
  cases n <;> rfl

/-- A number without the sign of zero is the number, or a zero. -/
theorem unsignedZero_eq_or (n : Double) :
    n.unsignedZero = n ∨ ∃ h, n = finite true 0 h ∧ n.unsignedZero = finite false 0 h := by
  cases n with
  | finite negative units h =>
    by_cases hzero : units = 0
    · subst hzero
      cases negative with
      | false => exact .inl rfl
      | true => exact .inr ⟨h, rfl, rfl⟩
    · left
      simp [unsignedZero, hzero]
  | _ => exact .inl rfl

theorem toText_unsignedZero (n : Double) : n.unsignedZero.toText = n.toText := by
  obtain h | ⟨_, rfl, h⟩ := n.unsignedZero_eq_or <;> rw [h]
  simp only [toText, if_true]

theorem abs_unsignedZero (n : Double) : n.unsignedZero.abs = n.abs := by
  cases n <;> rfl

theorem less_zero_unsignedZero (n : Double) : n.unsignedZero.less 0 = n.less 0 := by
  obtain h | ⟨_, rfl, h⟩ := n.unsignedZero_eq_or <;> rw [h]
  rw [less_zero_finite, less_zero_finite]
  rfl

theorem exists_round_zero (negative : Bool) (h : OnGrid 0) :
    ∃ h', (finite negative 0 h).round = finite negative 0 h' := by
  have hhalf : roundHalfUp 0 unitsPerOne = 0 := by
    have hpos := unitsPerOne_pos
    rw [roundHalfUp, Nat.mul_zero, Nat.zero_add]
    exact Nat.div_eq_of_lt (by omega)
  have hnearest : nearestUnits (0 * unitsPerOne) 1 = 0 := by simp [nearestUnits, roundHalfEven]
  rw [round, hhalf]
  exact exists_nearest hnearest unitsLimit_pos

theorem toNat32_round_zero (negative : Bool) (h : OnGrid 0) : (finite negative 0 h).round.toNat32 = 0 := by
  obtain ⟨_, hround⟩ := exists_round_zero negative h
  have hsigned : signedUnits negative (0 / unitsPerOne) = 0 := by
    rw [Nat.zero_div]
    cases negative <;> rfl
  rw [hround, toNat32, toInt, hsigned]
  rfl

/-- The text of a finite number reads as this number. -/
theorem readDouble_toText {n : Double} (h : n.isFinite = true) :
    readDouble n.toText.toList = some n.unsignedZero := by
  cases n with
  | finite negative units hgrid =>
    have hdigits := (decimalText_magnitudeDigits units).exists_cons
    rw [toText_finite, readDouble_signed hdigits, readUnsigned_magnitudeDigits _ hgrid]
    rfl
  | _ => cases h

end Double

end SequenceNotation.Number
