import SequenceNotation.Proofs.Format.WidthAndGrouping

/-!
# Numerals of formatted numbers

In the kinds for a radix a number is a sign, the marker of its radix if it is asked for, and digits.  The digits are
those of a count, so they are the number's own up to the greatest count.  Zeros that fill a width stand behind the
sign, so that with a marker the text is a numeral as long as there is nothing to fill.
-/

namespace SequenceNotation.Format

open SequenceNotation.Number SequenceNotation.Text

/-! ### Numerals -/

/-- A sign, a marker, and what has a property behind them. -/
def IsMarkedNumeral (marker : List Char) (holds : List Char → Prop) (text : List Char) : Prop :=
  ∃ sign ∈ signTexts, ∃ digits, text = sign ++ (marker ++ digits) ∧ holds digits

/-- The digits of a whole number in a radix; only zero begins with a zero. -/
def ReadsBack (radix n : Nat) (digits : List Char) : Prop :=
  readRadix? radix digits = some n ∧ (digits.head? = some '0' → n = 0)

/-- The digits of a whole number in a radix with separators, if there are any. -/
def ReadsBackWithout (grouping : Option Char) (radix n : Nat) (digits : List Char) : Prop :=
  readRadix? radix (digits.filter fun c => some c ≠ grouping) = some n

/-- A text is a sign and what stands behind it in one way. -/
theorem body_unique {sign sign' body body' : List Char} (hsign : sign ∈ signTexts) (hsign' : sign' ∈ signTexts)
    (hbody : ∀ c ∈ body.head?, isSignMark c = false) (hbody' : ∀ c ∈ body'.head?, isSignMark c = false)
    (h : sign ++ body = sign' ++ body') : body = body' := by
  have hspan := span_isSignMark hsign hbody
  rw [h, span_isSignMark hsign' hbody'] at hspan
  exact (Prod.mk.inj hspan).2.symm

/-- What can be read has a digit of the radix at least, and nothing else. -/
theorem isNumberBody_of_readRadix? {format : NumberFormat} {digits : List Char} {n : Nat}
    (h : readRadix? format.base digits = some n) : IsNumberBody format digits [] := by
  have hne : digits ≠ [] := by
    rintro rfl
    cases h
  refine ⟨hne, .inl ?_, nofun, List.forall_mem_nil _⟩
  rw [readRadix?, if_neg hne, Option.map_eq_some_iff] at h
  obtain ⟨values, hvalues, -⟩ := h
  clear hne
  -- a text has a value only if each of its characters has one
  induction digits generalizing values with
  | nil => exact List.forall_mem_nil _
  | cons c digits ih =>
    rw [List.mapM_cons] at hvalues
    obtain ⟨value, hvalue, hrest⟩ := Option.bind_eq_some_iff.1 hvalues
    obtain ⟨more, hmore, -⟩ := Option.bind_eq_some_iff.1 hrest
    exact List.forall_mem_cons.2 ⟨Option.isSome_of_mem hvalue, ih more hmore⟩

/-- Digits behind the marker of a format do not begin with a sign. -/
theorem isSignMark_head_of_readRadix? {format : NumberFormat} {digits : List Char} {n : Nat}
    (h : readRadix? format.base digits = some n) : ∀ c ∈ (format.marker ++ digits).head?, isSignMark c = false := by
  have hhead := (isNumberBody_of_readRadix? h).isSignMark_head none
  rwa [List.append_nil] at hhead

section Radix

variable {format : NumberFormat} {style : NumeralStyle} (hstyle : format.style? = some style)
include hstyle

theorem kind_ne_character : format.kind ≠ some .character := by
  obtain ⟨kind, hkind, hown⟩ := NumberFormat.exists_kind_of_style? hstyle
  rw [hkind]
  rintro ⟨⟩
  cases hown

theorem readsBack_radixNumeral (n : Nat) : ReadsBack format.base n (radixNumeral style.base style.upper n) := by
  obtain ⟨kind, -, hkind⟩ := NumberFormat.exists_kind_of_style? hstyle
  obtain ⟨hradix, hmax⟩ := NumberKind.base_bounds hkind
  have hread := readRadix?_zeroPadded hradix hmax 0 style.upper n
  rw [zeroPadded_of_le (Nat.zero_le _)] at hread
  rw [NumberFormat.base_of_style hstyle]
  exact ⟨hread, eq_zero_of_head?_radixNumeral hradix hmax⟩

variable {value : Double} (hfinite : value.isFinite = true) {n : Int} (hround : value.round.integer? = some n)
include hfinite hround

/-- What is printed of a number in the kinds for a radix. -/
theorem apply_of_style (hgrouping : ∀ separator ∈ format.grouping, separator ∈ [',', '_']) :
    let digits := radixNumeral style.base style.upper (min (2 ^ 64 - 1) n.natAbs)
    let text := format.signText value ++ (format.marker ++ groupedWith format.grouping 4 digits)
    (format.apply value).toList = withFill format.fill format.align (format.width - text.length) text := by
  have hcount := Double.toNat64_of_integer? (Double.integer?_round_abs hround)
  have hbody := @hasBody_of_style format value.abs style hstyle
  have happly := apply_of_hasBody (kind_ne_character hstyle) hfinite hbody format.grouping format.width hgrouping
  rw [hcount, NumberFormat.groupSize_of_style hstyle, List.append_nil] at happly
  exact happly

/-- Without a width and separators the digits are those of the greatest count at most. -/
theorem isMarkedNumeral_apply_iff (hgrouping : format.grouping = none) (hwidth : format.width = 0) :
    IsMarkedNumeral format.marker (ReadsBack style.base n.natAbs) (format.apply value).toList ↔ n.natAbs < 2 ^ 64 := by
  have hprinted := readsBack_radixNumeral hstyle (min (2 ^ 64 - 1) n.natAbs)
  have htext := apply_of_style hstyle hfinite hround (by rw [hgrouping]; exact nofun)
  dsimp only at htext
  rw [hwidth, Nat.zero_sub, withFill_zero, hgrouping] at htext
  rw [← NumberFormat.base_of_style hstyle, htext]
  have hsign := signText_mem format value
  constructor
  · -- whatever digits are told apart from the sign and the marker, they are the printed ones
    rintro ⟨sign, hsign', digits, heq, hread, -⟩
    have hbody := body_unique hsign hsign' (isSignMark_head_of_readRadix? hprinted.1)
      (isSignMark_head_of_readRadix? hread) heq
    rw [← List.append_cancel_left hbody, hprinted.1, Option.some.injEq] at hread
    omega
  · intro hsmall
    have hcount : min (2 ^ 64 - 1) n.natAbs = n.natAbs := by omega
    rw [hcount] at hprinted ⊢
    exact ⟨_, hsign, _, rfl, hprinted⟩

end Radix

namespace NumberFormat

/-- Every finite number is rounded to an integer, and in the kinds for a radix its digits are those of the integer's
magnitude exactly below the first number that is no count. -/
theorem radix_digits_read_back_iff {format : NumberFormat} {style : NumeralStyle} (hstyle : format.style? = some style)
    (hgrouping : format.grouping = none) (hwidth : format.width = 0) {value : Double}
    (hfinite : value.isFinite = true) :
    ∃ n, value.round.integer? = some n ∧
      (IsMarkedNumeral format.marker (ReadsBack style.base n.natAbs) (format.apply value).toList ↔
        n.natAbs < 2 ^ 64) := by
  obtain ⟨n, hround⟩ := Double.exists_integer?_round hfinite
  exact ⟨n, hround, isMarkedNumeral_apply_iff hstyle hfinite hround hgrouping hwidth⟩

/-- A format for a radix without anything else. -/
def plainRadix (alternate : Bool) (kind : NumberKind) : NumberFormat where
  fill := ' '
  align := .right
  sign := .nothing
  alternate := alternate
  width := 0
  grouping := none
  precision := none
  kind := some kind

/-- The least integer of 64 bits with its sign. -/
theorem radix_digits_read_back_least :
    parse? "#X".toList = some (plainRadix true .upperHex) ∧
      (-9223372036854775808 : Double).round.integer? = some (-9223372036854775808) ∧
      (plainRadix true .upperHex).apply (-9223372036854775808) = "-0X8000000000000000" ∧
      IsMarkedNumeral ['0', 'X'] (ReadsBack 16 9223372036854775808) "-0X8000000000000000".toList := by
  have hfinite : (-9223372036854775808 : Double).isFinite = true := by decide +kernel
  have hround : (-9223372036854775808 : Double).round.integer? = some (-9223372036854775808) := by decide +kernel
  have htext : (plainRadix true .upperHex).apply (-9223372036854775808) = "-0X8000000000000000" := by decide +kernel
  have hstyle : (plainRadix true .upperHex).style? = some ⟨16, "0X", true⟩ := rfl
  obtain ⟨n, hown, hnumeral⟩ := radix_digits_read_back_iff hstyle rfl rfl hfinite
  obtain rfl : -9223372036854775808 = n := Option.some.inj (hround.symm.trans hown)
  rw [htext] at hnumeral
  exact ⟨by decide, hround, htext, hnumeral.2 (by decide)⟩

/-- The first number that is no count has the digits of the one in front of it. -/
theorem greatest_count_for_more :
    parse? "x".toList = some (plainRadix false .lowerHex) ∧
      (18446744073709551616 : Double).round.integer? = some 18446744073709551616 ∧
      (plainRadix false .lowerHex).apply 18446744073709551616 = "ffffffffffffffff" ∧
      ¬IsMarkedNumeral [] (ReadsBack 16 18446744073709551616) "ffffffffffffffff".toList := by
  have hfinite : (18446744073709551616 : Double).isFinite = true := by decide +kernel
  have hround : (18446744073709551616 : Double).round.integer? = some 18446744073709551616 := by decide +kernel
  have htext : (plainRadix false .lowerHex).apply 18446744073709551616 = "ffffffffffffffff" := by decide +kernel
  have hstyle : (plainRadix false .lowerHex).style? = some ⟨16, "0x", false⟩ := rfl
  have hnumeral := isMarkedNumeral_apply_iff hstyle hfinite hround rfl rfl
  rw [htext] at hnumeral
  exact ⟨by decide, hround, htext, fun hreads => absurd (hnumeral.1 hreads) (by decide)⟩

end NumberFormat

/-! ### Zeros behind the sign -/

/-- With zeros between a sign and a marker the text is no numeral. -/
theorem isMarkedNumeral_withFill_iff {sign digits : List Char} {letter : Char} {holds : List Char → Prop}
    {count : Nat} (hsign : sign ∈ signTexts) (hletter : letter ≠ '0') (hholds : holds digits) :
    IsMarkedNumeral ['0', letter] holds (withFill '0' .afterSign count (sign ++ (['0', letter] ++ digits))) ↔
      count = 0 := by
  have hmarker (rest : List Char) : ∀ c ∈ ('0' :: rest).head?, isSignMark c = false := by
    rintro c ⟨⟩
    decide
  cases count with
  | zero =>
    rw [withFill_zero]
    exact iff_of_true ⟨sign, hsign, digits, rfl, hholds⟩ rfl
  | succ count =>
    refine iff_of_false ?_ (Nat.succ_ne_zero count)
    rintro ⟨sign', hsign', digits', heq, -⟩
    have hspan := span_isSignMark hsign (hmarker (letter :: digits))
    simp only [withFill, List.cons_append, List.nil_append, hspan, List.append_assoc] at heq
    have hbody := body_unique hsign hsign' (hmarker _) (hmarker _) heq
    -- the second character is a zero of the fill or of the marker
    cases count <;> cases hbody <;> exact hletter rfl

/-- With zeros behind the sign and a marker a number is a numeral exactly if no zeros are missing. -/
theorem isMarkedNumeral_zeroFilled_iff {format : NumberFormat} {style : NumeralStyle}
    (hstyle : format.style? = some style) (halternate : format.alternate = true) (hfill : format.fill = '0')
    (halign : format.align = .afterSign) (hgrouping : ∀ separator ∈ format.grouping, separator ∈ [',', '_'])
    {value : Double} (hfinite : value.isFinite = true) {n : Int} (hround : value.round.integer? = some n)
    (hn : n.natAbs < 2 ^ 64) :
    IsMarkedNumeral style.marker.toList (ReadsBackWithout format.grouping style.base n.natAbs)
        (format.apply value).toList ↔
      format.width ≤ ((format.withWidth 0).apply value).length := by
  obtain ⟨kind, -, hkind⟩ := NumberFormat.exists_kind_of_style? hstyle
  obtain ⟨letter, hletters, hletter⟩ := NumberKind.exists_marker hkind
  have hmarker : format.marker = ['0', letter] := by
    rw [← hletters, NumberFormat.marker, hstyle, halternate]
    rfl
  have hcount : min (2 ^ 64 - 1) n.natAbs = n.natAbs := by omega
  have hreads : ReadsBackWithout format.grouping style.base n.natAbs
      (groupedWith format.grouping 4 (radixNumeral style.base style.upper n.natAbs)) := by
    have hown := (readsBack_radixNumeral hstyle n.natAbs).1
    have hbody := isNumberBody_of_readRadix? hown
    rw [NumberFormat.base_of_style hstyle] at hown
    have hnone : ∀ separator ∈ format.grouping, separator ∉ radixNumeral style.base style.upper n.natAbs :=
      fun separator hseparator => (hbody.not_mem (hgrouping separator hseparator)).2.1
    rw [ReadsBackWithout, filter_groupedWith (by decide) hbody.whole_ne_nil hnone]
    exact hown
  have hplain : ((format.withWidth 0).apply value).toList = format.signText value ++
      (['0', letter] ++ groupedWith format.grouping 4 (radixNumeral style.base style.upper n.natAbs)) := by
    have happly := @apply_of_style (format.withWidth 0) style hstyle value hfinite n hround hgrouping
    dsimp only at happly
    rw [happly, hcount, ← hmarker, show (format.withWidth 0).width = 0 from rfl, Nat.zero_sub, withFill_zero]
    rfl
  -- the zeros are what the text without a width lacks
  have hwide := apply_withWidth (kind_ne_character hstyle) hfinite hgrouping format.width
  rw [hplain, hfill, halign] at hwide
  rw [show format.apply value = (format.withWidth format.width).apply value from rfl, hwide, hletters,
    isMarkedNumeral_withFill_iff (signText_mem _ value) (fun h => hletter (h ▸ List.mem_cons_self)) hreads,
    Nat.sub_eq_zero_iff_le]

theorem formatNumber_parts {parts : FormatParts} (h : parts.IsWritable) (hne : parts.text ≠ []) (value : Double) :
    formatNumber value (String.ofList parts.text) = (parts.format none none).apply value := by
  rw [formatNumber, String.toList_ofList, FormatParts.parse?_alone h hne]

theorem FormatParts.text_ne_nil {parts : FormatParts} (h : parts.alternate = true) : parts.text ≠ [] := by
  intro hnil
  have hmark := (List.append_eq_nil_iff.1 (List.append_eq_nil_iff.1 hnil).2).1
  rw [h] at hmark
  cases hmark

/-- A number with the marker of its radix and zeros for its width is a sign, the marker and its digits exactly if the
width asks for no zeros. -/
theorem zero_filled_numeral_iff {parts : FormatParts} (h : parts.IsWritable) (halternate : parts.alternate = true)
    (hzero : parts.zero = true) {kind : NumberKind} (hkind : parts.kind = some kind) {style : NumeralStyle}
    (hstyle : kind.style? = some style) {value : Double} {n : Int} (hvalue : value.integer? = some n)
    (hn : n.natAbs < 2 ^ 64) :
    IsMarkedNumeral style.marker.toList (ReadsBackWithout parts.grouping style.base n.natAbs)
        (formatNumber value (String.ofList parts.text)).toList ↔
      parts.width ≤ (formatNumber value (String.ofList { parts with width := 0 }.text)).length := by
  have hplain : { parts with width := 0 }.IsWritable :=
    { width_lt := (by decide : 0 < 2 ^ 64), grouping_mem := h.grouping_mem, precision_lt := h.precision_lt }
  have hown : (parts.format none none).style? = some style := by
    rw [NumberFormat.style?, show (parts.format none none).kind = some kind from hkind]
    exact hstyle
  have hfill : (parts.format none none).fill = '0' ∧ (parts.format none none).align = .afterSign := by
    rw [FormatParts.format, hzero]
    exact ⟨rfl, rfl⟩
  have hfinite : value.isFinite = true := by
    obtain ⟨negative, k, hgrid, rfl, -⟩ := Double.exists_finite_of_integer? hvalue
    rfl
  rw [formatNumber_parts h (FormatParts.text_ne_nil halternate),
    formatNumber_parts hplain (FormatParts.text_ne_nil halternate)]
  exact isMarkedNumeral_zeroFilled_iff hown halternate hfill.1 hfill.2 h.grouping_mem hfinite
    (Double.integer?_round hvalue) hn

/-- What asks for a marker and for zeros up to a width. -/
def zeroFilledHex (width : Nat) (grouping : Option Char) : FormatParts where
  alternate := true
  zero := true
  width := width
  grouping := grouping
  kind := some .lowerHex

theorem isWritable_zeroFilledHex {width : Nat} {grouping : Option Char} (hwidth : width < 2 ^ 64)
    (hgrouping : ∀ separator ∈ grouping, separator ∈ [',', '_']) : (zeroFilledHex width grouping).IsWritable where
  width_lt := hwidth
  grouping_mem := hgrouping
  precision_lt := nofun

/-- A width of nine asks for no zeros in front of five digits. -/
theorem zero_filled_numeral_five_digits :
    String.ofList (zeroFilledHex 9 (some '_')).text = "#09_x" ∧ (-74565 : Double).integer? = some (-74565) ∧
      formatNumber (-74565) "#09_x" = "-0x1_2345" ∧
      IsMarkedNumeral ['0', 'x'] (ReadsBackWithout (some '_') 16 74565) "-0x1_2345".toList := by
  have hwritable := @isWritable_zeroFilledHex 9 (some '_') (by decide) (by rintro _ ⟨⟩; decide)
  have hspec : String.ofList (zeroFilledHex 9 (some '_')).text = "#09_x" := by decide +kernel
  have hplain : String.ofList { zeroFilledHex 9 (some '_') with width := 0 }.text = "#0_x" := by decide +kernel
  have hvalue : (-74565 : Double).integer? = some (-74565) := by decide +kernel
  have htext : formatNumber (-74565) "#09_x" = "-0x1_2345" := by decide +kernel
  have hshort : formatNumber (-74565) "#0_x" = "-0x1_2345" := by decide +kernel
  have hnumeral := zero_filled_numeral_iff hwritable rfl rfl rfl rfl hvalue (by decide)
  rw [hspec, hplain, htext, hshort] at hnumeral
  exact ⟨hspec, hvalue, htext, hnumeral.2 (by decide)⟩

/-- The zeros for a width of ten stand in front of the marker. -/
theorem zeros_in_front_of_marker :
    (zeroFilledHex 10 none).IsWritable ∧ String.ofList (zeroFilledHex 10 none).text = "#010x" ∧
      (255 : Double).integer? = some 255 ∧ formatNumber 255 "#010x" = "0000000xff" ∧
      ¬IsMarkedNumeral ['0', 'x'] (ReadsBackWithout none 16 255) "0000000xff".toList := by
  refine ⟨isWritable_zeroFilledHex (by decide) nofun, by decide +kernel, by decide +kernel, by decide +kernel, ?_⟩
  have hdigits : ReadsBackWithout none 16 255 ['f', 'f'] := by
    show readRadix? 16 _ = some 255
    decide
  have hsign : [] ∈ signTexts := List.mem_cons_self
  have hfilled := @isMarkedNumeral_withFill_iff [] _ 'x' _ 6 hsign (by decide) hdigits
  exact fun hnumeral => absurd (hfilled.1 hnumeral) (by decide)

end SequenceNotation.Format
