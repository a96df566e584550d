import Mathlib.Data.List.TakeWhile
import SequenceNotation.Proofs.Format.DigitGroups
import SequenceNotation.Proofs.Number.Numeral
import SequenceNotation.Proofs.Number.Order

/-!
# The layout of formatted numbers

A formatted number is a sign, the marker of its radix if it is asked for, a whole part, and behind it a fraction, an
exponent or a percent sign.  The separators of a format are written between digits of the whole part only, and its
fill where its alignment says.  The digits themselves depend on neither.
-/

namespace SequenceNotation.Format

open SequenceNotation.Number SequenceNotation.Text

/-! ### Radix kinds -/

/-- How the kinds for a radix write a whole number. -/
structure NumeralStyle where
  base : Nat
  marker : String
  upper : Bool

/-- The style of a kind, if it is one for a radix. -/
def NumberKind.style? : NumberKind → Option NumeralStyle
  | binary => some ⟨2, "0b", false⟩
  | octal => some ⟨8, "0o", false⟩
  | lowerHex => some ⟨16, "0x", false⟩
  | upperHex => some ⟨16, "0X", true⟩
  | _ => none

theorem NumberKind.base_bounds {kind : NumberKind} {style : NumeralStyle} (h : kind.style? = some style) :
    1 < style.base ∧ style.base ≤ maxRadix := by
  cases kind <;> cases h <;> decide

/-- A marker is a zero and a letter. -/
theorem NumberKind.exists_marker {kind : NumberKind} {style : NumeralStyle} (h : kind.style? = some style) :
    ∃ letter, style.marker.toList = ['0', letter] ∧ letter ∉ ['0', ',', '_'] := by
  cases kind <;> cases h <;> exact ⟨_, rfl, by decide⟩

namespace NumberFormat

/-- The style of a format for a radix. -/
def style? (format : NumberFormat) : Option NumeralStyle :=
  format.kind.bind NumberKind.style?

/-- The radix of the digits in front of the point. -/
def base (format : NumberFormat) : Nat :=
  (format.style?.map NumeralStyle.base).getD 10

/-- The size of its groups. -/
def groupSize (format : NumberFormat) : Nat :=
  if format.style?.isSome then 4 else 3

/-- What stands between the sign and the digits. -/
def marker (format : NumberFormat) : List Char :=
  if format.alternate then (format.style?.map fun style => style.marker.toList).getD [] else []

theorem exists_kind_of_style? {format : NumberFormat} {style : NumeralStyle} (h : format.style? = some style) :
    ∃ kind, format.kind = some kind ∧ kind.style? = some style :=
  Option.bind_eq_some_iff.1 h

theorem base_of_style {format : NumberFormat} {style : NumeralStyle} (h : format.style? = some style) :
    format.base = style.base := by
  rw [base, h]
  rfl

theorem groupSize_of_style {format : NumberFormat} {style : NumeralStyle} (h : format.style? = some style) :
    format.groupSize = 4 := by
  rw [groupSize, h]
  rfl

theorem body_of_style {format : NumberFormat} {style : NumeralStyle} (h : format.style? = some style)
    (magnitude : Double) :
    format.body magnitude =
      format.marker ++ groupedWith format.grouping 4 (radixNumeral style.base style.upper magnitude.round.toNat64) := by
  have hradix : format.body magnitude =
      format.radixBody magnitude.round.toNat64 style.base style.marker style.upper := by
    obtain ⟨kind, hkind, hstyle⟩ := exists_kind_of_style? h
    unfold body
    rw [hkind]
    cases kind <;> cases hstyle <;> rfl
  rw [hradix]
  unfold radixBody marker
  rw [h]
  cases format.alternate <;> cases format.grouping <;> rfl

end NumberFormat

/-! ### Whole parts -/

/-- The whole part and the rest of a number, in a format: digits of its radix, or the word for a magnitude that a
percentage carries beyond the doubles; and behind them, unless it is one for a radix, what begins with a point, an
exponent's letter or a percent sign. -/
structure IsNumberBody (format : NumberFormat) (whole rest : List Char) : Prop where
  whole_ne_nil : whole ≠ []
  whole_digits : (∀ c ∈ whole, (radixDigit? format.base c).isSome = true) ∨
    format.kind = some .percent ∧ whole = ['i', 'n', 'f']
  rest_head : ∀ c ∈ rest.head?, format.style? = none ∧ c ∈ ['.', 'e', 'E', '%']
  rest_plain : ∀ c ∈ rest, c ∉ [',', '_']

theorem isSome_radixDigit?_of_isDigit {c : Char} (h : c.isDigit = true) : (radixDigit? 10 c).isSome = true := by
  have hnine : c.toNat ≤ '9'.toNat := UInt32.le_iff_toNat_le.1 (of_decide_eq_true (Bool.and_eq_true_iff.1 h).2)
  have hlt : c.toNat - '0'.toNat < 10 := Nat.lt_of_le_of_lt (Nat.sub_le_sub_right hnine _) (by decide)
  have hvalue : digitValue? c = some (c.toNat - '0'.toNat) := if_pos h
  rw [radixDigit?_of_lt hvalue hlt]
  rfl

/-- Digits in front of the point, and the point with what is behind it, or nothing. -/
structure IsDecimalBody (whole fraction : List Char) : Prop where
  whole_ne_nil : whole ≠ []
  whole_digits : ∀ c ∈ whole, c.isDigit = true
  fraction_head : ∀ c ∈ fraction.head?, c = '.'
  fraction_chars : ∀ c ∈ fraction, c.isDigit = true ∨ c = '.'

theorem exists_decimalBody {text : List Char} (h : DecimalText text) :
    ∃ whole fraction, text = whole ++ fraction ∧ IsDecimalBody whole fraction := by
  cases h with
  | whole hdigits hall => exact ⟨text, [], (List.append_nil _).symm, hdigits, hall, nofun, List.forall_mem_nil _⟩
  | @fraction digits places hdigits hall hplaces =>
    refine ⟨digits, '.' :: places, rfl, hdigits, hall, ?_, ?_⟩
    · rintro c ⟨⟩
      rfl
    · exact List.forall_mem_cons.2 ⟨.inr rfl, fun c hc => .inl (hplaces c hc)⟩

theorem ne_of_isDigit {c d : Char} (hc : c.isDigit = true) (hd : d.isDigit = false) : c ≠ d := by
  rintro rfl
  exact Bool.false_ne_true (hd.symm.trans hc)

section DecimalBody

variable {whole fraction : List Char} (h : IsDecimalBody whole fraction)
include h

theorem IsDecimalBody.point_not_mem : '.' ∉ whole :=
  fun hmem => ne_of_isDigit (h.whole_digits _ hmem) (by decide) rfl

/-- A body with what may stand behind it. -/
theorem IsDecimalBody.isNumberBody {format : NumberFormat} (hstyle : format.style? = none) {tail : List Char}
    (hhead : ∀ c ∈ tail.head?, c ∈ ['e', 'E', '%']) (hplain : ∀ c ∈ tail, c ∉ [',', '_']) :
    IsNumberBody format whole (fraction ++ tail) := by
  have hbase : format.base = 10 := by rw [NumberFormat.base, hstyle]; rfl
  refine ⟨h.whole_ne_nil, .inl fun c hc => ?_, fun c hc => ⟨hstyle, ?_⟩, fun c hc => ?_⟩
  · rw [hbase]
    exact isSome_radixDigit?_of_isDigit (h.whole_digits c hc)
  · cases hfraction : fraction with
    | nil =>
      rw [hfraction] at hc
      exact List.mem_cons_of_mem _ (hhead c hc)
    | cons d places =>
      have hd := h.fraction_head d (by rw [hfraction]; rfl)
      rw [hfraction] at hc
      cases hc
      rw [hd]
      exact List.mem_cons_self
  · rcases List.mem_append.1 hc with hfraction | htail
    · have hall : ∀ c ∈ [',', '_'], c.isDigit = false ∧ c ≠ '.' := forall_of_all (by decide)
      intro hmem
      rcases h.fraction_chars c hfraction with hdigit | hpoint
      · exact ne_of_isDigit hdigit (hall c hmem).1 rfl
      · exact (hall c hmem).2 hpoint
    · exact hplain c htail

theorem IsDecimalBody.splitPoint_eq : splitPoint (whole ++ fraction) = (whole, fraction) := by
  have hwhole : ∀ c ∈ whole, decide (c ≠ '.') = true := fun c hc =>
    decide_eq_true fun heq => h.point_not_mem (heq ▸ hc)
  exact span_append_of_head hwhole fun c hc => decide_eq_false (not_not.2 (h.fraction_head c hc))

theorem IsDecimalBody.group_eq (format : NumberFormat) :
    format.group (whole ++ fraction) = groupedWith format.grouping 3 whole ++ fraction := by
  unfold NumberFormat.group
  rw [h.splitPoint_eq]
  cases format.grouping <;> rfl

end DecimalBody

/-! ### Zeros at the end of a fraction -/

/-- Nothing is dropped behind a front that holds something else, or in front of what holds nothing to drop. -/
theorem dropWhile_append_eq {p : Char → Bool} {front back : List Char}
    (h : (∃ c ∈ front, p c = false) ∨ ∀ c ∈ back, p c = false) :
    (front ++ back).dropWhile p = front.dropWhile p ++ back := by
  rw [List.dropWhile_append]
  split
  · rename_i hempty
    have hnil := List.isEmpty_iff.1 hempty
    have hback : ∀ c ∈ back, p c = false := by
      refine h.resolve_left ?_
      rintro ⟨c, hc, hfalse⟩
      exact Bool.false_ne_true (hfalse.symm.trans (List.dropWhile_eq_nil_iff.1 hnil c hc))
    rw [hnil, List.nil_append, List.dropWhile_eq_self_iff]
    intro hpos hfirst
    exact Bool.false_ne_true ((hback _ (List.getElem_mem hpos)).symm.trans hfirst)
  · rfl

/-- Zeros are taken from the end of the fraction only, whatever digits stand in front of the point. -/
theorem withoutFractionZeros_append {whole : List Char} (h : '.' ∉ whole) (fraction : List Char) :
    withoutFractionZeros (whole ++ fraction) = whole ++ withoutFractionZeros fraction := by
  unfold withoutFractionZeros
  by_cases hpoint : '.' ∈ fraction
  · have hzeros := @dropWhile_append_eq (· = '0') fraction.reverse whole.reverse
      (.inl ⟨'.', List.mem_reverse.2 hpoint, by decide⟩)
    have hpoints := @dropWhile_append_eq (· = '.') (fraction.reverse.dropWhile (· = '0')) whole.reverse
      (.inr fun c hc => decide_eq_false fun heq => h (heq ▸ List.mem_reverse.1 hc))
    rw [if_pos (by simp [hpoint]), if_pos (by simp [hpoint]), List.reverse_append, hzeros, hpoints,
      List.reverse_append, List.reverse_reverse]
  · rw [if_neg (by simp [hpoint, h]), if_neg (by simp [hpoint])]

theorem withoutFractionZeros_front (text : List Char) : withoutFractionZeros text <+: text := by
  unfold withoutFractionZeros
  split
  · have hsuffix := ((List.dropWhile_suffix (l := text.reverse.dropWhile (· = '0')) (· = '.')).trans
      (List.dropWhile_suffix (· = '0')))
    rw [← List.reverse_prefix, List.reverse_reverse] at hsuffix
    exact hsuffix
  · exact List.prefix_refl text

theorem IsDecimalBody.withoutFractionZeros {whole fraction : List Char} (h : IsDecimalBody whole fraction) :
    IsDecimalBody whole (withoutFractionZeros fraction) where
  whole_ne_nil := h.whole_ne_nil
  whole_digits := h.whole_digits
  fraction_head c hc := by
    obtain ⟨rest, hrest⟩ := withoutFractionZeros_front fraction
    refine h.fraction_head c ?_
    rw [← hrest, List.head?_append, Option.mem_def.1 hc]
    rfl
  fraction_chars c hc := h.fraction_chars c ((withoutFractionZeros_front fraction).subset hc)

/-- What is shown of a text in the general kinds: all of it if the format asks for it. -/
def shownText (alternate : Bool) (text : List Char) : List Char :=
  if alternate then text else withoutFractionZeros text

theorem shownText_append (alternate : Bool) {whole : List Char} (h : '.' ∉ whole) (fraction : List Char) :
    shownText alternate (whole ++ fraction) = whole ++ shownText alternate fraction := by
  cases alternate with
  | false => exact withoutFractionZeros_append h fraction
  | true => rfl

theorem IsDecimalBody.shownText {whole fraction : List Char} (h : IsDecimalBody whole fraction) (alternate : Bool) :
    IsDecimalBody whole (shownText alternate fraction) := by
  cases alternate with
  | false => exact h.withoutFractionZeros
  | true => exact h

/-! ### Magnitudes -/

theorem decimalText_toFixed (places : Nat) {units : Nat} (hgrid : OnGrid units) :
    DecimalText ((Double.finite false units hgrid).toFixed places).toList := by
  rw [Double.toFixed, String.toList_ofList]
  exact decimalText_fixedPlaces places units

theorem decimalText_toText {units : Nat} (hgrid : OnGrid units) :
    DecimalText (Double.finite false units hgrid).toText.toList := by
  rw [Double.toText_finite]
  exact Double.decimalText_magnitudeDigits units

/-- Rounding keeps the sign, also beyond the doubles. -/
theorem nearest_eq_or (negative : Bool) (num den : Nat) :
    (∃ units hgrid, Double.nearest negative num den = .finite negative units hgrid) ∨
      Double.nearest negative num den = .infinite negative := by
  by_cases h : nearestUnits num den < unitsLimit
  · obtain ⟨hgrid, heq⟩ := @Double.exists_nearest negative num den _ rfl h
    exact .inl ⟨_, hgrid, heq⟩
  · exact .inr (dif_neg h)

theorem exists_round {units : Nat} (hgrid : OnGrid units) :
    ∃ units' hgrid', (Double.finite false units hgrid).round = .finite false units' hgrid' := by
  have hwhole := Double.integer?_round_finite false hgrid
  rw [Double.round_finite, Double.ofWhole] at hwhole ⊢
  refine (nearest_eq_or false _ 1).resolve_right fun hinfinite => ?_
  rw [hinfinite] at hwhole
  cases hwhole

theorem mul_hundred_eq_or {units : Nat} (hgrid : OnGrid units) :
    (∃ units' hgrid', (Double.finite false units hgrid * 100 : Double) = .finite false units' hgrid') ∨
      (Double.finite false units hgrid * 100 : Double) = .infinite false := by
  obtain ⟨hgrid', hhundred⟩ := Double.exists_ofNat (show 100 ≤ Double.exactLimit by decide)
  rw [show (100 : Double) = Double.ofNat 100 from rfl, hhundred, Double.mul_finite]
  exact nearest_eq_or _ _ _

theorem exists_significantDigits (places units : Nat) :
    ∃ first more, (significantDigits places units).1 = first :: more ∧ ∀ c ∈ first :: more, c.isDigit = true := by
  have hdecimal (n : Nat) :
      ∃ first more, decimalDigits n = first :: more ∧ ∀ c ∈ first :: more, c.isDigit = true := by
    obtain ⟨first, more, heq⟩ := List.exists_cons_of_ne_nil (show decimalDigits n ≠ [] from Nat.toDigits_ne_nil)
    exact ⟨first, more, heq, fun c hc => isDigit_decimalDigits (heq ▸ hc)⟩
  unfold significantDigits
  dsimp only
  split
  · refine ⟨'0', List.replicate places '0', rfl, fun c hc => ?_⟩
    rw [List.eq_of_mem_replicate (show c ∈ List.replicate (places + 1) '0' from hc)]
    decide
  · split
    · exact hdecimal _
    · exact hdecimal _

/-- A mantissa has one digit in front of its point. -/
theorem exists_mantissa (places : Nat) {units : Nat} (hgrid : OnGrid units) :
    ∃ first fraction, (NumberFormat.scientificParts places (.finite false units hgrid)).1 = [first] ++ fraction ∧
      IsDecimalBody [first] fraction := by
  obtain ⟨first, more, hdigits, hall⟩ := exists_significantDigits places units
  have hmantissa : (NumberFormat.scientificParts places (.finite false units hgrid)).1 =
      pointAfterFirst (first :: more) := hdigits ▸ rfl
  have hfirst : ∀ c ∈ [first], c.isDigit = true := List.forall_mem_singleton.2 (hall first (.head _))
  rw [hmantissa]
  cases more with
  | nil => exact ⟨first, [], rfl, List.cons_ne_nil _ _, hfirst, nofun, List.forall_mem_nil _⟩
  | cons second more =>
    refine ⟨first, '.' :: second :: more, rfl, List.cons_ne_nil _ _, hfirst, ?_, ?_⟩
    · rintro c ⟨⟩
      rfl
    · exact List.forall_mem_cons.2 ⟨.inr rfl, fun c hc => .inl (hall c (.tail _ hc))⟩

theorem scientificBody_eq (upper : Bool) {places : Nat} {magnitude : Double} {mantissa : List Char}
    (h : (NumberFormat.scientificParts places magnitude).1 = mantissa) :
    NumberFormat.scientificBody upper places magnitude =
      mantissa ++ NumberFormat.exponentLetter upper :: (NumberFormat.scientificParts places magnitude).2 := by
  subst h
  rfl

/-- An exponent is a sign and digits. -/
theorem exponent_chars (places : Nat) (magnitude : Double) :
    ∀ c ∈ (NumberFormat.scientificParts places magnitude).2, c ∉ [',', '_'] := by
  have hall : ∀ c ∈ [',', '_'], c.isDigit = false := forall_of_all (by decide)
  have hsign (negative : Prop) [Decidable negative] : (if negative then '-' else '+') ∉ [',', '_'] := by
    split <;> decide
  refine List.forall_mem_cons.2 ⟨hsign _, fun c hc hmem => ?_⟩
  exact ne_of_isDigit (isDigit_zeroPadded (fun _ => isDigit_decimalDigits) c hc) (hall c hmem) rfl

/-! ### Bodies -/

/-- The body of a magnitude in a format: the same whole part and rest with every separator and every width, but for
the groups of the whole part. -/
def HasBody (format : NumberFormat) (magnitude : Double) (whole rest : List Char) : Prop :=
  IsNumberBody format whole rest ∧
    ∀ grouping width, (∀ separator ∈ grouping, separator ∈ [',', '_']) →
      ({ format with grouping, width } : NumberFormat).body magnitude =
        format.marker ++ (groupedWith grouping format.groupSize whole ++ rest)

section Bodies

variable {format : NumberFormat} {magnitude : Double}

theorem hasBody_of_style {style : NumeralStyle} (h : format.style? = some style) :
    HasBody format magnitude (radixNumeral style.base style.upper magnitude.round.toNat64) [] := by
  obtain ⟨kind, -, hkind⟩ := NumberFormat.exists_kind_of_style? h
  obtain ⟨hradix, hmax⟩ := NumberKind.base_bounds hkind
  refine ⟨⟨?_, .inl ?_, nofun, List.forall_mem_nil _⟩, fun grouping width _ => ?_⟩
  · exact fun hnil => Nat.toDigits_ne_nil (List.map_eq_nil_iff.1 hnil)
  · intro c hc
    have hmem : c ∈ zeroPadded 0 (radixNumeral style.base style.upper _) := List.mem_append_right _ hc
    rw [NumberFormat.base_of_style h]
    exact isSome_radixDigit?_of_mem hradix hmax hmem
  · rw [List.append_nil, NumberFormat.groupSize_of_style h]
    exact @NumberFormat.body_of_style { format with grouping, width } style h magnitude

/-- Outside of the kinds for a radix groups have three digits, and there is no marker. -/
theorem hasBody_of_eq (hstyle : format.style? = none) {whole rest : List Char} (h : IsNumberBody format whole rest)
    (hbody : ∀ grouping width, (∀ separator ∈ grouping, separator ∈ [',', '_']) →
      ({ format with grouping, width } : NumberFormat).body magnitude = groupedWith grouping 3 whole ++ rest) :
    HasBody format magnitude whole rest := by
  have hmarker : format.marker = [] := by
    rw [NumberFormat.marker, hstyle]
    split <;> rfl
  have hsize : format.groupSize = 3 := by
    rw [NumberFormat.groupSize, hstyle]
    rfl
  refine ⟨h, fun grouping width hgrouping => ?_⟩
  rw [hmarker, hsize]
  exact hbody grouping width hgrouping

/-- A text in digits that is grouped, with what stands behind it. -/
theorem exists_hasBody_of_group (hstyle : format.style? = none) {text tail : List Char} (htext : DecimalText text)
    (hhead : ∀ c ∈ tail.head?, c ∈ ['e', 'E', '%']) (hplain : ∀ c ∈ tail, c ∉ [',', '_'])
    (hbody : ∀ grouping width, ({ format with grouping, width } : NumberFormat).body magnitude =
      ({ format with grouping, width } : NumberFormat).group text ++ tail) :
    ∃ whole rest, HasBody format magnitude whole rest := by
  obtain ⟨whole, fraction, rfl, h⟩ := exists_decimalBody htext
  refine ⟨whole, fraction ++ tail, hasBody_of_eq hstyle (h.isNumberBody hstyle hhead hplain) ?_⟩
  intro grouping width _
  rw [hbody, h.group_eq, List.append_assoc]

theorem exists_hasBody_of_text (hstyle : format.style? = none) {text : List Char} (htext : DecimalText text)
    (hbody : ∀ grouping width, ({ format with grouping, width } : NumberFormat).body magnitude =
      ({ format with grouping, width } : NumberFormat).group text) :
    ∃ whole rest, HasBody format magnitude whole rest := by
  refine @exists_hasBody_of_group format magnitude hstyle text [] htext nofun (List.forall_mem_nil _) ?_
  intro grouping width
  rw [hbody, List.append_nil]

theorem exponentLetter_mem (upper : Bool) : NumberFormat.exponentLetter upper ∈ ['e', 'E'] := by
  cases upper <;> decide

/-- A mantissa has no digits to group. -/
theorem hasBody_of_mantissa (hstyle : format.style? = none) {first : Char} {fraction : List Char}
    (h : IsDecimalBody [first] fraction) (upper : Bool) (places : Nat) (other : Double)
    (hbody : ∀ grouping width, ({ format with grouping, width } : NumberFormat).body magnitude =
      [first] ++ fraction ++ NumberFormat.exponentLetter upper :: (NumberFormat.scientificParts places other).2) :
    ∃ whole rest, HasBody format magnitude whole rest := by
  have hletter := exponentLetter_mem upper
  have hsub : ∀ c ∈ ['e', 'E'], c ∈ ['e', 'E', '%'] ∧ c ∉ [',', '_'] := forall_of_all (by decide)
  have hparts : IsNumberBody format [first] (fraction ++ NumberFormat.exponentLetter upper ::
      (NumberFormat.scientificParts places other).2) := by
    refine h.isNumberBody hstyle ?_ (List.forall_mem_cons.2 ⟨(hsub _ hletter).2, exponent_chars places other⟩)
    rintro c ⟨⟩
    exact (hsub _ hletter).1
  refine ⟨[first], _, hasBody_of_eq hstyle hparts fun grouping width _ => ?_⟩
  have hsingle : groupedWith grouping 3 [first] = [first] := by
    cases grouping with
    | none => rfl
    | some separator => simp [groupedWith, groupDigits]
  rw [hbody, hsingle, List.append_assoc]

/-- In front of an exponent stands a mantissa. -/
theorem exists_exponentBody {units : Nat} (hgrid : OnGrid units) (upper : Bool) (places : Nat)
    (hstyle : format.style? = none)
    (hbody : ∀ grouping width, ({ format with grouping, width } : NumberFormat).body (.finite false units hgrid) =
      NumberFormat.scientificBody upper places (.finite false units hgrid)) :
    ∃ whole rest, HasBody format (.finite false units hgrid) whole rest := by
  obtain ⟨first, fraction, htext, hparts⟩ := exists_mantissa places hgrid
  refine hasBody_of_mantissa hstyle hparts upper places (.finite false units hgrid) fun grouping width => ?_
  rw [hbody]
  exact scientificBody_eq upper htext

/-- A percentage is a text in digits with its sign behind it, or a word if it lies beyond the doubles. -/
theorem exists_percentBody {units : Nat} (hgrid : OnGrid units) (places : Nat) (hkind : format.kind = some .percent)
    (hbody : ∀ grouping width, ({ format with grouping, width } : NumberFormat).body (.finite false units hgrid) =
      ({ format with grouping, width } : NumberFormat).group
        ((Double.finite false units hgrid * 100 : Double).toFixed places).toList ++ ['%']) :
    ∃ whole rest, HasBody format (.finite false units hgrid) whole rest := by
  have hstyle : format.style? = none := by
    rw [NumberFormat.style?, hkind]
    rfl
  have hplain : ∀ c ∈ ['%'], c ∉ [',', '_'] := List.forall_mem_singleton.2 (by decide)
  have hhead : ∀ c ∈ ['%'].head?, c ∈ ['e', 'E', '%'] := by
    rintro c ⟨⟩
    decide
  rcases mul_hundred_eq_or hgrid with ⟨units', hgrid', hproduct⟩ | hinfinite
  · have htext : DecimalText ((Double.finite false units hgrid * 100 : Double).toFixed places).toList := by
      rw [hproduct]
      exact decimalText_toFixed places hgrid'
    exact exists_hasBody_of_group hstyle htext hhead hplain hbody
  · -- the word has three letters and is a single group
    have hword : ((Double.finite false units hgrid * 100 : Double).toFixed places).toList = ['i', 'n', 'f'] := by
      rw [hinfinite, Double.toFixed, if_neg Bool.false_ne_true]
      rfl
    have hparts : IsNumberBody format ['i', 'n', 'f'] ['%'] := by
      refine ⟨List.cons_ne_nil _ _, .inr ⟨hkind, rfl⟩, ?_, hplain⟩
      rintro c ⟨⟩
      exact ⟨hstyle, by decide⟩
    refine ⟨['i', 'n', 'f'], ['%'], hasBody_of_eq hstyle hparts fun grouping width _ => ?_⟩
    rw [hbody, hword]
    cases grouping <;> rfl

/-- In the general kinds the exponent decides on the notation, which is the same for every separator and width. -/
theorem exists_generalBody {units : Nat} (hgrid : OnGrid units) (upper : Bool) (hstyle : format.style? = none)
    (hbody : ∀ grouping width, ({ format with grouping, width } : NumberFormat).body (.finite false units hgrid) =
      ({ format with grouping, width } : NumberFormat).generalBody upper (.finite false units hgrid)) :
    ∃ whole rest, HasBody format (.finite false units hgrid) whole rest := by
  have hempty : ∀ c ∈ ([] : List Char), c ∉ [',', '_'] := List.forall_mem_nil _
  generalize hprecision : max (format.precision.getD 6) 1 = precision
  generalize hexponent : (Double.finite false units hgrid).log10.floor.toInt32 = exponent
  by_cases hzero : (Double.finite false units hgrid).isZero = true
  · -- a zero is a single digit
    have hdigit : IsDecimalBody ['0'] [] :=
      ⟨List.cons_ne_nil _ _, List.forall_mem_singleton.2 rfl, nofun, List.forall_mem_nil _⟩
    refine ⟨['0'], [] ++ [], hasBody_of_eq hstyle (hdigit.isNumberBody hstyle nofun hempty) fun grouping width _ => ?_⟩
    rw [hbody, NumberFormat.generalBody, if_pos hzero]
    cases grouping <;> rfl
  · by_cases hfixed : -4 ≤ exponent ∧ exponent < wrap32 precision
    · -- in fixed notation the shown text has the same point, if it has one
      obtain ⟨whole, fraction, htext, h⟩ :=
        exists_decimalBody (decimalText_toFixed (wrap32 (precision - 1 - exponent)).toNat hgrid)
      refine ⟨whole, shownText format.alternate fraction ++ [],
        hasBody_of_eq hstyle ((h.shownText _).isNumberBody hstyle nofun hempty) fun grouping width hgrouping => ?_⟩
      have hpoint : '.' ∉ groupedWith grouping 3 whole := by
        intro hmem
        rcases mem_groupedWith hmem with hwhole | hseparator
        · exact h.point_not_mem hwhole
        · exact absurd (hgrouping '.' hseparator) (by decide)
      have hgroup := h.group_eq { format with grouping, width }
      rw [hbody, NumberFormat.generalBody, if_neg hzero]
      dsimp only
      rw [hprecision, hexponent, if_pos hfixed, NumberFormat.fixedBody, htext, hgroup, List.append_nil]
      exact shownText_append format.alternate hpoint fraction
    · -- with an exponent a single digit stands in front of the point
      obtain ⟨first, fraction, htext, h⟩ := exists_mantissa (precision - 1) hgrid
      refine hasBody_of_mantissa hstyle (h.shownText format.alternate) upper (precision - 1)
        (.finite false units hgrid) fun grouping width => ?_
      rw [hbody, NumberFormat.generalBody, if_neg hzero]
      dsimp only
      rw [hprecision, hexponent, if_neg hfixed, htext, ← shownText_append format.alternate h.point_not_mem]
      rfl

/-- Every finite number has a body, whose whole part is all that the separator of the format concerns. -/
theorem exists_body (hkind : format.kind ≠ some .character) {value : Double} (hfinite : value.isFinite = true) :
    ∃ whole rest, HasBody format value.abs whole rest := by
  cases value with
  | nan => cases hfinite
  | infinite negative => cases hfinite
  | finite negative units hgrid =>
    show ∃ whole rest, HasBody format (.finite false units hgrid) whole rest
    obtain ⟨fill, align, sign, alternate, width, grouping, precision, kind⟩ := format
    -- each kind prints in a radix, in groups, with an exponent, as a percentage, or as the general kinds choose
    cases kind with
    | none =>
      cases precision with
      | none => exact exists_hasBody_of_text rfl (decimalText_toText hgrid) fun _ _ => rfl
      | some places => exact exists_hasBody_of_text rfl (decimalText_toFixed places hgrid) fun _ _ => rfl
    | some kind =>
      cases kind with
      | binary | octal | lowerHex | upperHex => exact ⟨_, _, hasBody_of_style rfl⟩
      | character => exact absurd rfl hkind
      | decimal =>
        obtain ⟨units', hgrid', hround⟩ := exists_round hgrid
        have htext : DecimalText ((Double.finite false units hgrid).round.toFixed 0).toList := by
          rw [hround]
          exact decimalText_toFixed 0 hgrid'
        exact exists_hasBody_of_text rfl htext fun _ _ => rfl
      | lowerExponent => exact exists_exponentBody hgrid false (precision.getD 6) rfl fun _ _ => rfl
      | upperExponent => exact exists_exponentBody hgrid true (precision.getD 6) rfl fun _ _ => rfl
      | lowerFixed | upperFixed =>
        exact exists_hasBody_of_text rfl (decimalText_toFixed (precision.getD 6) hgrid) fun _ _ => rfl
      | lowerGeneral => exact exists_generalBody hgrid false rfl fun _ _ => rfl
      | upperGeneral => exact exists_generalBody hgrid true rfl fun _ _ => rfl
      | percent => exact exists_percentBody hgrid (precision.getD 6) rfl fun _ _ => rfl

end Bodies

end SequenceNotation.Format
