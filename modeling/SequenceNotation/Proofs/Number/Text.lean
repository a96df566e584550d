import SequenceNotation.Number.Text

/-!
# The characters of printed numbers

A finite number is printed with digits only, a minus sign in front if it is negative, and a point in
front of a fraction.
-/

namespace SequenceNotation.Number

/-- Digits, and behind them a point and more digits if there is a fraction. -/
inductive DecimalText : List Char → Prop
  | whole {digits : List Char} (hdigits : digits ≠ []) (hall : ∀ c ∈ digits, c.isDigit = true) :
    DecimalText digits
  | fraction {digits places : List Char} (hdigits : digits ≠ [])
    (hall : ∀ c ∈ digits, c.isDigit = true) (hplaces : ∀ c ∈ places, c.isDigit = true) :
    DecimalText (digits ++ '.' :: places)

theorem DecimalText.exists_cons {text : List Char} (h : DecimalText text) :
    ∃ d rest, text = d :: rest ∧ d.isDigit = true := by
  cases h with
  | whole hdigits hall =>
    obtain ⟨d, rest, rfl⟩ := List.exists_cons_of_ne_nil hdigits
    exact ⟨d, rest, rfl, hall d (.head _)⟩
  | fraction hdigits hall hplaces =>
    obtain ⟨d, rest, rfl⟩ := List.exists_cons_of_ne_nil hdigits
    exact ⟨d, _, rfl, hall d (.head _)⟩

theorem DecimalText.isDigit_or_eq {text : List Char} (h : DecimalText text) :
    ∀ c ∈ text, c.isDigit = true ∨ c = '.' := by
  intro c hc
  cases h with
  | whole _ hall => exact .inl (hall c hc)
  | fraction _ hall hplaces =>
    rcases List.mem_append.1 hc with hdigit | hrest
    · exact .inl (hall c hdigit)
    · rcases List.mem_cons.1 hrest with rfl | hplace
      · exact .inr rfl
      · exact .inl (hplaces c hplace)

theorem decimalText_decimalDigits (n : Nat) : DecimalText (decimalDigits n) :=
  .whole (Nat.toDigits_ne_nil) fun _ hc =>
    Nat.isDigit_of_mem_toDigits (by decide) (by decide) hc

theorem isDigit_decimalDigits {n : Nat} {c : Char} (hc : c ∈ decimalDigits n) : c.isDigit = true :=
  Nat.isDigit_of_mem_toDigits (by decide) (by decide) hc

theorem isDigit_zeroPadded {width : Nat} {digits : List Char} (hdigits : ∀ c ∈ digits, c.isDigit = true) :
    ∀ c ∈ zeroPadded width digits, c.isDigit = true := by
  intro c hc
  rcases List.mem_append.1 hc with hzero | hdigit
  · rw [List.eq_of_mem_replicate hzero]
    decide
  · exact hdigits c hdigit

theorem isDigit_append_zeros {digits : List Char} (hdigits : ∀ c ∈ digits, c.isDigit = true) (count : Nat) :
    ∀ c ∈ digits ++ List.replicate count '0', c.isDigit = true := by
  intro c hc
  rcases List.mem_append.1 hc with hdigit | hzero
  · exact hdigits c hdigit
  · rw [List.eq_of_mem_replicate hzero]
    decide

/-- The fraction of a decimal written out has as many places as the exponent says, and the digits on both sides
of the point are those of the significand behind zeros. -/
theorem Decimal.exists_fraction {d : Decimal} (h : ¬0 ≤ d.exponent) :
    ∃ digits places, d.positional = digits ++ '.' :: places ∧ digits ≠ [] ∧
      digits ++ places = zeroPadded (places.length + 1) (decimalDigits d.significand) ∧
      d.exponent = -(places.length : Int) := by
  unfold positional
  dsimp only
  rw [if_neg h]
  generalize hcount : (-d.exponent).toNat = count
  have hlength : count + 1 ≤ (zeroPadded (count + 1) (decimalDigits d.significand)).length := by
    simp only [zeroPadded, List.length_append, List.length_replicate]
    omega
  refine ⟨_, _, rfl, ?_, ?_, ?_⟩
  · refine List.ne_nil_of_length_pos ?_
    rw [List.length_take]
    omega
  · have hplaces : ((zeroPadded (count + 1) (decimalDigits d.significand)).drop
        ((zeroPadded (count + 1) (decimalDigits d.significand)).length - count)).length = count := by
      rw [List.length_drop]
      omega
    rw [List.take_append_drop, hplaces]
  · rw [List.length_drop]
    omega

theorem decimalText_positional (d : Decimal) : DecimalText d.positional := by
  have hdigits : ∀ c ∈ decimalDigits d.significand, c.isDigit = true := fun _ => isDigit_decimalDigits
  by_cases hexponent : 0 ≤ d.exponent
  · have hne : decimalDigits d.significand ≠ [] := Nat.toDigits_ne_nil
    unfold Decimal.positional
    dsimp only
    rw [if_pos hexponent]
    exact .whole (by simp [hne]) (isDigit_append_zeros hdigits _)
  · obtain ⟨digits, places, hpositional, hne, hpadded, -⟩ := Decimal.exists_fraction hexponent
    have hall := @isDigit_zeroPadded (places.length + 1) _ hdigits
    rw [← hpadded] at hall
    rw [hpositional]
    exact .fraction hne (fun c hc => hall c (List.mem_append_left _ hc))
      (fun c hc => hall c (List.mem_append_right _ hc))

theorem decimalText_fixedPlaces (places units : Nat) : DecimalText (fixedPlaces places units) := by
  unfold fixedPlaces
  dsimp only
  split
  · exact decimalText_decimalDigits _
  · exact decimalText_positional _

namespace Double

/-- The digits of a finite number without its sign. -/
def magnitudeDigits (units : Nat) : List Char :=
  if units = 0 then ['0']
  else if units % unitsPerOne = 0 ∧ units < Nat.pow 10 21 * unitsPerOne then decimalDigits (units / unitsPerOne)
  else (shortest units).positional

theorem decimalText_magnitudeDigits (units : Nat) : DecimalText (magnitudeDigits units) := by
  unfold magnitudeDigits
  split
  · exact .whole (by decide) (by simp)
  · split
    · exact decimalText_decimalDigits _
    · exact decimalText_positional _

/-- A finite number is its digits behind its sign; a zero has none. -/
theorem toText_finite (negative : Bool) (units : Nat) (h : OnGrid units) :
    (finite negative units h).toText.toList = signed (negative && units ≠ 0) (magnitudeDigits units) := by
  unfold toText magnitudeDigits
  dsimp only
  split
  · rename_i hzero
    simp [hzero, signed]
  · rename_i hunits
    split <;> simp [hunits]

theorem unitsLimit_pos : 0 < unitsLimit := by
  unfold unitsLimit
  generalize 2098 = n
  exact Nat.two_pow_pos n

theorem exists_nearest {negative : Bool} {num den units : Nat} (h : nearestUnits num den = units)
    (hlimit : units < unitsLimit) : ∃ hgrid, nearest negative num den = finite negative units hgrid := by
  subst h
  rw [nearest, dif_pos hlimit]
  exact ⟨_, rfl⟩

theorem exists_nearest_zero : ∃ h, nearest false 0 1 = finite false 0 h :=
  exists_nearest (by simp [nearestUnits, roundHalfEven]) unitsLimit_pos

theorem zero_eq_nearest : (0 : Double) = nearest false 0 1 := by
  have hzero : (0 : Double) = ofNat 0 := rfl
  rw [hzero, ofNat, ofWhole, Nat.zero_mul]

theorem less_zero_finite (negative : Bool) (units : Nat) (h : OnGrid units) :
    (finite negative units h).less 0 = (negative && units ≠ 0) := by
  obtain ⟨hzero, heq⟩ := exists_nearest_zero
  rw [zero_eq_nearest, heq]
  cases negative
  · simp [less, signedUnits]
  · simp [less, signedUnits, Nat.pos_iff_ne_zero]

theorem isNan_ofNat (n : Nat) : (ofNat n).isNan = false := by
  unfold ofNat ofWhole nearest
  split <;> rfl

end Double

end SequenceNotation.Number
