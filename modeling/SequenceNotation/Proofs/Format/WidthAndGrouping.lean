import SequenceNotation.Proofs.Format.NumberLayout
import SequenceNotation.Proofs.Format.WrittenFormat

/-!
# Width and grouping of formatted numbers

The width of a format and its separators leave the number alone.  Its fill is put around the text that it prints
without a width, or right behind the sign of this text, and its separators between digits of the whole part, so that
the text without them is the one that is printed without grouping.
-/

namespace SequenceNotation.Format

open SequenceNotation.Number SequenceNotation.Text

/-! ### Signs -/

/-- What can stand in front of a number. -/
def signTexts : List (List Char) :=
  [[], ['-'], ['+'], [' ']]

def isSignMark (c : Char) : Bool :=
  c = '-' || c = '+' || c = ' '

theorem signText_mem (format : NumberFormat) (value : Double) : format.signText value ∈ signTexts := by
  unfold NumberFormat.signText
  split
  · decide
  · cases format.sign <;> decide

theorem isSignMark_of_mem {sign : List Char} (hsign : sign ∈ signTexts) : ∀ c ∈ sign, isSignMark c = true := by
  have hall : (signTexts.all fun sign => sign.all isSignMark) = true := rfl
  exact List.all_eq_true.1 (List.all_eq_true.1 hall sign hsign)

/-- A sign ends where the text behind it does not begin with one. -/
theorem span_isSignMark {sign body : List Char} (hsign : sign ∈ signTexts)
    (hbody : ∀ c ∈ body.head?, isSignMark c = false) : (sign ++ body).span isSignMark = (sign, body) :=
  span_append_of_head (isSignMark_of_mem hsign) hbody

theorem isSignMark_of_isSome_radixDigit? {radix : Nat} {c : Char} (h : (radixDigit? radix c).isSome = true) :
    isSignMark c = false := by
  obtain ⟨digit, hdigit, -⟩ := exists_digit_of_radixDigit? h
  refine Bool.eq_false_iff.2 fun hmark => ?_
  have hnone : digitValue? c = none := by
    simp only [isSignMark, Bool.or_eq_true, decide_eq_true_eq] at hmark
    rcases hmark with (rfl | rfl) | rfl <;> decide
  cases hnone.symm.trans hdigit

theorem NumberFormat.marker_eq_or (format : NumberFormat) :
    format.marker = [] ∨ ∃ letter, format.marker = ['0', letter] ∧ letter ∉ ['0', ',', '_'] := by
  unfold NumberFormat.marker
  cases format.alternate with
  | false => exact .inl rfl
  | true =>
    cases hstyle : format.style? with
    | none => exact .inl rfl
    | some style =>
      obtain ⟨kind, -, hkind⟩ := NumberFormat.exists_kind_of_style? hstyle
      exact .inr (NumberKind.exists_marker hkind)

section Body

variable {format : NumberFormat} {whole rest : List Char} (h : IsNumberBody format whole rest)
include h

/-- Neither a marker nor a whole part begins with a sign. -/
theorem IsNumberBody.isSignMark_head (grouping : Option Char) :
    ∀ c ∈ (format.marker ++ (groupedWith grouping format.groupSize whole ++ rest)).head?, isSignMark c = false := by
  rcases format.marker_eq_or with hmarker | ⟨letter, hmarker, -⟩
  · -- grouping keeps the first digit
    obtain ⟨first, more, hwhole⟩ := List.exists_cons_of_ne_nil h.whole_ne_nil
    intro c hc
    rw [hmarker, List.nil_append, List.head?_append, head?_groupedWith, hwhole] at hc
    cases hc
    rcases h.whole_digits with hdigits | ⟨-, hword⟩
    · exact isSignMark_of_isSome_radixDigit? (hdigits first (hwhole ▸ List.mem_cons_self))
    · rw [hword] at hwhole
      cases hwhole
      decide
  · rw [hmarker]
    rintro c ⟨⟩
    decide

/-- A number has separators from its format only. -/
theorem IsNumberBody.not_mem {separator : Char} (hseparator : separator ∈ [',', '_']) :
    separator ∉ format.marker ∧ separator ∉ whole ∧ separator ∉ rest := by
  refine ⟨fun hmem => ?_, fun hmem => ?_, fun hmem => h.rest_plain separator hmem hseparator⟩
  · rcases format.marker_eq_or with hmarker | ⟨letter, hmarker, hletter⟩
    · rw [hmarker] at hmem
      cases hmem
    · rw [hmarker] at hmem
      rcases List.mem_cons.1 hmem with rfl | hmem
      · exact absurd hseparator (by decide)
      · rw [List.mem_singleton.1 hmem] at hseparator
        exact hletter (.tail _ hseparator)
  · have hnone : ∀ c ∈ [',', '_'], digitValue? c = none ∧ c ∉ ['i', 'n', 'f'] := forall_of_all (by decide)
    obtain ⟨hvalue, hword⟩ := hnone separator hseparator
    rcases h.whole_digits with hdigits | ⟨-, rfl⟩
    · obtain ⟨digit, hdigit, -⟩ := exists_digit_of_radixDigit? (hdigits separator hmem)
      cases hvalue.symm.trans hdigit
    · exact hword hmem

end Body

theorem not_mem_sign {sign : List Char} (hsign : sign ∈ signTexts) {separator : Char}
    (hseparator : separator ∈ [',', '_']) : separator ∉ sign := by
  have hnone : ∀ c ∈ [',', '_'], isSignMark c = false := forall_of_all (by decide)
  intro hmem
  exact absurd ((isSignMark_of_mem hsign separator hmem).symm.trans (hnone separator hseparator)) (by decide)

/-! ### Fill -/

/-- A text with a count of fill characters where an alignment allows them: behind it, in front of it, on both sides
with the odd one behind it, or right behind its sign. -/
def withFill (fill : Char) (align : Alignment) (count : Nat) (text : List Char) : List Char :=
  match align with
  | .left => text ++ List.replicate count fill
  | .right => List.replicate count fill ++ text
  | .center => List.replicate (count / 2) fill ++ text ++ List.replicate (count - count / 2) fill
  | .afterSign =>
    let (sign, body) := text.span isSignMark
    sign ++ List.replicate count fill ++ body

theorem length_withFill (fill : Char) (align : Alignment) (count : Nat) (text : List Char) :
    (withFill fill align count text).length = text.length + count := by
  cases align with
  | left => rw [withFill, List.length_append, List.length_replicate]
  | right => rw [withFill, List.length_append, List.length_replicate, Nat.add_comm]
  | center =>
    -- the halves add up to the count, whether it is even or odd
    rw [withFill, List.length_append, List.length_append, List.length_replicate, List.length_replicate]
    omega
  | afterSign =>
    have hspan := congrArg List.length (@List.takeWhile_append_dropWhile _ isSignMark text)
    rw [List.length_append] at hspan
    simp only [withFill, List.span_eq_takeWhile_dropWhile, List.length_append, List.length_replicate]
    omega

theorem withFill_zero (fill : Char) (align : Alignment) (text : List Char) : withFill fill align 0 text = text := by
  cases align with
  | left => exact List.append_nil text
  | right => rfl
  | center => exact List.append_nil text
  | afterSign =>
    simp only [withFill, List.span_eq_takeWhile_dropWhile, List.replicate_zero, List.append_nil]
    exact List.takeWhile_append_dropWhile

/-- The fill of a format depends on the text as a whole. -/
theorem pad_eq_withFill (format : NumberFormat) {sign body : List Char} (hsign : sign ∈ signTexts)
    (hbody : ∀ c ∈ body.head?, isSignMark c = false) :
    format.pad sign body =
      withFill format.fill format.align (format.width - (sign ++ body).length) (sign ++ body) := by
  rw [List.length_append, NumberFormat.pad]
  cases format.align with
  | left => rfl
  | right => exact List.append_assoc _ _ _
  | center => simp only [withFill, List.append_assoc]
  | afterSign => simp only [withFill, span_isSignMark hsign hbody]

/-! ### Numbers -/

namespace NumberFormat

def withWidth (format : NumberFormat) (width : Nat) : NumberFormat :=
  { format with width }

def ungrouped (format : NumberFormat) : NumberFormat :=
  { format with grouping := none }

end NumberFormat

/-- A number with and without separators: the same but for the whole part, whose digits are in groups of the size
that its format asks for. -/
def IsGroupedNumber (format : NumberFormat) (separator : Char) (plain grouped : List Char) : Prop :=
  ∃ sign whole rest groups, sign ∈ signTexts ∧ IsNumberBody format whole rest ∧
    plain = sign ++ (format.marker ++ (whole ++ rest)) ∧ grouped = sign ++ (format.marker ++ (groups ++ rest)) ∧
    IsGrouped separator format.groupSize whole groups

/-- Without its separators a number is the one that is printed without grouping. -/
theorem IsGroupedNumber.filter_eq {format : NumberFormat} {separator : Char} {plain grouped : List Char}
    (h : IsGroupedNumber format separator plain grouped) (hseparator : separator ∈ [',', '_']) :
    grouped.filter (fun c => c ≠ separator) = plain := by
  obtain ⟨sign, whole, rest, groups, hsign, hbody, rfl, rfl, hgroups⟩ := h
  obtain ⟨hmarker, hwhole, hrest⟩ := hbody.not_mem hseparator
  rw [List.filter_append, List.filter_append, List.filter_append, hgroups.filter_eq hwhole,
    filter_eq_self_of_not_mem (not_mem_sign hsign hseparator), filter_eq_self_of_not_mem hmarker,
    filter_eq_self_of_not_mem hrest]

section Apply

variable {format : NumberFormat} {value : Double} (hkind : format.kind ≠ some .character)
  (hfinite : value.isFinite = true)
include hkind hfinite

theorem apply_eq_pad :
    format.apply value = String.ofList (format.pad (format.signText value) (format.body value.abs)) := by
  rw [NumberFormat.apply, hfinite, if_neg hkind]
  rfl

/-- A number is printed as its sign, its marker, its whole part in groups and its rest, with fill as the width and the
alignment ask for it. -/
theorem apply_of_hasBody {whole rest : List Char} (h : HasBody format value.abs whole rest) (grouping : Option Char)
    (width : Nat) (hgrouping : ∀ separator ∈ grouping, separator ∈ [',', '_']) :
    let text := format.signText value ++ (format.marker ++ (groupedWith grouping format.groupSize whole ++ rest))
    (({ format with grouping, width } : NumberFormat).apply value).toList =
      withFill format.fill format.align (width - text.length) text := by
  obtain ⟨hparts, hbody⟩ := h
  have happly := @apply_eq_pad { format with grouping, width } value hkind hfinite
  rw [hbody grouping width hgrouping] at happly
  rw [happly, String.toList_ofList]
  exact pad_eq_withFill { format with grouping, width } (signText_mem format value) (hparts.isSignMark_head grouping)

/-- The width of a format is met by fill alone. -/
theorem apply_withWidth (hgrouping : ∀ separator ∈ format.grouping, separator ∈ [',', '_']) (width : Nat) :
    ((format.withWidth width).apply value).toList =
      withFill format.fill format.align (width - ((format.withWidth 0).apply value).length)
        ((format.withWidth 0).apply value).toList := by
  obtain ⟨whole, rest, hbody⟩ := exists_body hkind hfinite
  have hplain := apply_of_hasBody hkind hfinite hbody format.grouping 0 hgrouping
  have hwide := apply_of_hasBody hkind hfinite hbody format.grouping width hgrouping
  dsimp only at hplain hwide
  rw [Nat.zero_sub, withFill_zero] at hplain
  rw [← String.length_toList, show ((format.withWidth 0).apply value).toList = _ from hplain]
  exact hwide

/-- Separators stand between the groups of the whole part. -/
theorem isGroupedNumber_apply (hgrouping : ∀ separator ∈ format.grouping, separator ∈ [',', '_']) {separator : Char}
    (hseparator : separator ∈ format.grouping) :
    IsGroupedNumber format separator ((format.withWidth 0).ungrouped.apply value).toList
      ((format.withWidth 0).apply value).toList := by
  obtain ⟨whole, rest, hbody⟩ := exists_body hkind hfinite
  -- both texts have the same sign, whole part and rest
  have hplain := apply_of_hasBody hkind hfinite hbody none 0 nofun
  have hgrouped := apply_of_hasBody hkind hfinite hbody format.grouping 0 hgrouping
  have hgroups : groupedWith format.grouping format.groupSize whole = groupDigits separator format.groupSize whole := by
    rw [Option.mem_def.1 hseparator]
    rfl
  dsimp only at hplain hgrouped
  rw [Nat.zero_sub, withFill_zero] at hplain hgrouped
  rw [hgroups] at hgrouped
  have hsize : 0 < format.groupSize := by
    unfold NumberFormat.groupSize
    split <;> decide
  exact ⟨format.signText value, whole, rest, _, signText_mem format value, hbody.1, hplain, hgrouped,
    isGrouped_groupDigits hsize hbody.1.whole_ne_nil⟩

end Apply

namespace NumberFormat

/-- A percentage in the middle of seventeen places. -/
def starredPercent : NumberFormat where
  fill := '*'
  align := .center
  sign := .nothing
  alternate := false
  width := 17
  grouping := some ','
  precision := some 2
  kind := some .percent

end NumberFormat

end SequenceNotation.Format
