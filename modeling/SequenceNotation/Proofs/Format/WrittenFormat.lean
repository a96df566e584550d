import SequenceNotation.Format.NumberFormat
import SequenceNotation.Proofs.Notation.Marks
import SequenceNotation.Proofs.Notation.ScriptDigits
import SequenceNotation.Proofs.Number.Numeral

/-!
# Written number formats

A number format is written part by part, with each part in its place and most of them optional.  A part that is left
out is not read, since what stands behind it begins with none of its characters, and a part that is there ends where
the next one begins.  So every format is read from its text, whatever its fill is.
-/

namespace SequenceNotation.Format

open SequenceNotation.Number SequenceNotation.Text SequenceNotation.Notation

/-! ### Parts of a format -/

/-- A mark that is there or not. -/
def markText (mark : Char) (shown : Bool) : List Char :=
  if shown then [mark] else []

/-- A width in decimal; zero is left out. -/
def widthText (width : Nat) : List Char :=
  if width = 0 then [] else decimalDigits width

/-- A precision behind its point. -/
def precisionText : Option Nat → List Char
  | none => []
  | some places => '.' :: decimalDigits places

/-- What a format says behind its fill and alignment.  The zero asks for zeros behind the sign. -/
structure FormatParts where
  sign : Option SignRule := none
  alternate : Bool := false
  zero : Bool := false
  width : Nat := 0
  grouping : Option Char := none
  precision : Option Nat := none
  kind : Option NumberKind := none

namespace FormatParts

/-- Widths and precisions are counts, and the separator is one of the two that there are. -/
structure IsWritable (parts : FormatParts) : Prop where
  width_lt : parts.width < 2 ^ 64
  grouping_mem : ∀ separator ∈ parts.grouping, separator ∈ [',', '_']
  precision_lt : ∀ places ∈ parts.precision, places < 2 ^ 64

/-- The parts one behind the other. -/
def text (parts : FormatParts) : List Char :=
  (parts.sign.map SignRule.symbol).toList ++ (markText '#' parts.alternate ++ (markText '0' parts.zero ++
    (widthText parts.width ++ (parts.grouping.toList ++ (precisionText parts.precision ++
      (parts.kind.map NumberKind.symbol).toList)))))

/-- The format that the parts make with a fill and an alignment. -/
def format (parts : FormatParts) (fill : Option Char) (align : Option Alignment) : NumberFormat where
  fill := fill.getD (if parts.zero && align.isNone then '0' else ' ')
  align := align.getD (if parts.zero then .afterSign else .right)
  sign := parts.sign.getD .nothing
  alternate := parts.alternate
  width := parts.width
  grouping := parts.grouping
  precision := parts.precision
  kind := parts.kind

end FormatParts

/-! ### What a part begins with -/

/-- The text begins with one of the characters, or is empty. -/
def BeginsIn (heads text : List Char) : Prop :=
  ∀ c ∈ text.head?, c ∈ heads

def kindHeads : List Char :=
  ['b', 'c', 'd', 'o', 'x', 'X', 'e', 'E', 'f', 'F', 'g', 'G', '%']

def precisionHeads : List Char := '.' :: kindHeads

def groupingHeads : List Char := ',' :: '_' :: precisionHeads

def widthHeads : List Char := ['1', '2', '3', '4', '5', '6', '7', '8', '9'] ++ groupingHeads

def zeroHeads : List Char := '0' :: widthHeads

def alternateHeads : List Char := '#' :: zeroHeads

section Heads

variable {heads heads' : List Char}

theorem BeginsIn.append {front back : List Char} (hfront : BeginsIn heads front) (hback : BeginsIn heads' back)
    (hsub : heads' ⊆ heads) : BeginsIn heads (front ++ back) := by
  cases front with
  | nil => exact fun c hc => hsub (hback c hc)
  | cons d front => exact hfront

theorem beginsIn_optional {α : Type} {symbol : α → Char} {part : Option α} (h : ∀ a ∈ part, symbol a ∈ heads) :
    BeginsIn heads (part.map symbol).toList := by
  cases part with
  | none => rintro c ⟨⟩
  | some a => rintro c ⟨⟩; exact h a rfl

theorem beginsIn_mark {mark : Char} (h : mark ∈ heads) (shown : Bool) : BeginsIn heads (markText mark shown) := by
  cases shown with
  | false => rintro c ⟨⟩
  | true => rintro c ⟨⟩; exact h

end Heads

theorem mem_widthHeads {c : Char} (h : c.isDigit = true) (hzero : c ≠ '0') : c ∈ widthHeads := by
  have hall : ∀ n < 58, 49 ≤ n → Char.ofNat n ∈ widthHeads := by decide
  have hlow : '0'.toNat ≤ c.toNat := UInt32.le_iff_toNat_le.1 (of_decide_eq_true (Bool.and_eq_true_iff.1 h).1)
  have hhigh : c.toNat ≤ '9'.toNat := UInt32.le_iff_toNat_le.1 (of_decide_eq_true (Bool.and_eq_true_iff.1 h).2)
  have hne : '0'.toNat ≠ c.toNat := fun heq => hzero (Char.toNat_inj.1 heq.symm)
  have hown := hall c.toNat (Nat.lt_succ_of_le hhigh) (Nat.lt_of_le_of_ne hlow hne)
  rwa [Char.ofNat_toNat] at hown

/-- The digits of a width do not begin with a zero. -/
theorem beginsIn_width (width : Nat) : BeginsIn widthHeads (widthText width) := by
  intro c hc
  unfold widthText at hc
  split at hc
  · cases hc
  · rename_i hwidth
    refine mem_widthHeads (isDigit_decimalDigits (List.mem_of_mem_head? hc)) ?_
    rintro rfl
    have hown : (radixNumeral 10 false width).head? = some '0' := by
      rw [radixNumeral, List.head?_map]
      exact congrArg (Option.map _) hc
    exact hwidth (eq_zero_of_head?_radixNumeral (by decide) (by decide) hown)

theorem beginsIn_precision (precision : Option Nat) : BeginsIn precisionHeads (precisionText precision) := by
  cases precision with
  | none => rintro c ⟨⟩
  | some places => rintro c ⟨⟩; exact List.mem_cons_self

/-! ### Reading the parts -/

section Reading

variable {α : Type} {meaning : Char → Option α} {heads rest : List Char}

/-- A part that is left out is not read. -/
theorem optionalPart_absent (hrest : BeginsIn heads rest) (h : ∀ c ∈ heads, meaning c = none) :
    optionalPart meaning rest = (none, rest) := by
  cases rest with
  | nil => rfl
  | cons c rest => rw [optionalPart, h c (hrest c rfl)]

theorem optionalPart_present {c : Char} {a : α} (h : meaning c = some a) (rest : List Char) :
    optionalPart meaning (c :: rest) = (some a, rest) := by
  rw [optionalPart, h]

theorem optionalPart_symbol {symbol : α → Char} {part : Option α} (hsymbol : ∀ a ∈ part, meaning (symbol a) = some a)
    (hrest : BeginsIn heads rest) (h : ∀ c ∈ heads, meaning c = none) :
    optionalPart meaning ((part.map symbol).toList ++ rest) = (part, rest) := by
  cases part with
  | none => exact optionalPart_absent hrest h
  | some a => exact optionalPart_present (hsymbol a rfl) rest

/-- A separator is read as itself. -/
theorem optionalPart_separator {grouping : Option Char} (hgrouping : ∀ separator ∈ grouping, separator ∈ [',', '_'])
    (hrest : BeginsIn precisionHeads rest) :
    optionalPart (fun c => if c = ',' ∨ c = '_' then some c else none) (grouping.toList ++ rest) =
      (grouping, rest) := by
  cases grouping with
  | none => exact optionalPart_absent hrest (forall_of_all (by decide))
  | some separator =>
    refine optionalPart_present (if_pos ?_) rest
    simpa using hgrouping separator rfl

theorem optionalPart_mark {mark : Char} (shown : Bool) (hrest : BeginsIn heads rest) (h : mark ∉ heads) :
    optionalPart (fun c => if c = mark then some () else none) (markText mark shown ++ rest) =
      (if shown then some () else none, rest) := by
  cases shown with
  | false =>
    refine optionalPart_absent hrest fun c hc => if_neg ?_
    rintro rfl
    exact h hc
  | true => exact optionalPart_present (if_pos rfl) rest

/-- Digits end where the text behind them begins with none. -/
theorem span_isDecimalDigit {digits : List Char} (hall : ∀ c ∈ digits, isDecimalDigit c = true)
    (hrest : BeginsIn heads rest) (h : ∀ c ∈ heads, isDecimalDigit c = false) :
    (digits ++ rest).span isDecimalDigit = (digits, rest) :=
  span_append_of_head hall fun c hc => h c (hrest c hc)

theorem isDecimalDigit_decimalDigits (n : Nat) : ∀ c ∈ decimalDigits n, isDecimalDigit c = true :=
  fun _ hc => holds_digit (isDigit_decimalDigits hc)

theorem readBounded?_decimalDigits {n limit : Nat} (h : n < limit) : readBounded? limit (decimalDigits n) = some n := by
  have hne : decimalDigits n ≠ [] := Nat.toDigits_ne_nil
  have hascii : IsAscii (decimalDigits n) := fun _ hc => isDigit_decimalDigits hc
  rw [readBounded?_digits hne (isDecimalDigit_decimalDigits n), scriptValue_of_isAscii hascii,
    digitsValue_decimalDigits, if_pos ⟨hascii, h⟩]

theorem span_widthText (width : Nat) (hrest : BeginsIn groupingHeads rest) :
    (widthText width ++ rest).span isDecimalDigit = (widthText width, rest) := by
  refine span_isDecimalDigit ?_ hrest (forall_of_all (by decide +kernel))
  unfold widthText
  split
  · exact List.forall_mem_nil _
  · exact isDecimalDigit_decimalDigits width

theorem readBounded?_widthText {width : Nat} (h : width < countLimit) :
    (readBounded? countLimit (widthText width)).getD 0 = width := by
  unfold widthText
  split
  · rename_i hzero
    rw [hzero]
    rfl
  · rw [readBounded?_decimalDigits h, Option.getD_some]

theorem spanPrecision_digits {d : Char} {digits text : List Char} (h : text.span isDecimalDigit = (d :: digits, rest)) :
    spanPrecision ('.' :: text) = (readBounded? countLimit (d :: digits), rest) := by
  rw [spanPrecision, h]

theorem spanPrecision_precisionText {precision : Option Nat} (h : ∀ places ∈ precision, places < countLimit)
    (hrest : BeginsIn kindHeads rest) : spanPrecision (precisionText precision ++ rest) = (precision, rest) := by
  cases precision with
  | none =>
    show spanPrecision rest = (none, rest)
    unfold spanPrecision
    split
    · exact absurd (hrest '.' rfl) (by decide)
    · rfl
  | some places =>
    have hspan := span_isDecimalDigit (isDecimalDigit_decimalDigits places) hrest (forall_of_all (by decide +kernel))
    have hvalue := readBounded?_decimalDigits (h places rfl)
    have hne : decimalDigits places ≠ [] := Nat.toDigits_ne_nil
    obtain ⟨d, digits, hdigits⟩ := List.exists_cons_of_ne_nil hne
    rw [hdigits] at hspan hvalue
    rw [precisionText, hdigits, List.cons_append, spanPrecision_digits hspan, hvalue]

end Reading

theorem ofSymbol?_signSymbol (rule : SignRule) : SignRule.ofSymbol? rule.symbol = some rule := by
  cases rule <;> rfl

theorem ofSymbol?_kindSymbol (kind : NumberKind) : NumberKind.ofSymbol? kind.symbol = some kind := by
  cases kind <;> rfl

theorem ofSymbol?_alignSymbol (align : Alignment) : Alignment.ofSymbol? align.symbol = some align := by
  cases align <;> rfl

theorem symbol_mem_kindHeads (kind : NumberKind) : kind.symbol ∈ kindHeads := by
  cases kind <;> decide

/-- A fill is any character but a line feed, also one that means something elsewhere. -/
theorem spanAlignment_written {fill : Char} (h : fill ≠ '\n') (align : Alignment) (rest : List Char) :
    spanAlignment (fill :: align.symbol :: rest) = (some fill, some align, rest) := by
  rw [spanAlignment, List.head?_cons, Option.bind_some, ofSymbol?_alignSymbol]
  exact if_neg h

/-- Without an alignment nothing is read in front of the other parts. -/
theorem spanAlignment_absent {text : List Char} (h : ∀ c ∈ text, Alignment.ofSymbol? c = none) :
    spanAlignment text = (none, none, text) := by
  cases text with
  | nil => rfl
  | cons first rest =>
    have hsecond : rest.head?.bind Alignment.ofSymbol? = none :=
      Option.bind_eq_none_iff.2 fun c hc => h c (.tail _ (List.mem_of_mem_head? hc))
    rw [spanAlignment, hsecond, h first (.head _)]

/-- Behind the fill and the alignment each part is read where it is written. -/
theorem parse?_parts {parts : FormatParts} (h : parts.IsWritable) {front : List Char} {fill : Option Char}
    {align : Option Alignment} (hfront : spanAlignment (front ++ parts.text) = (fill, align, parts.text))
    (hne : front ++ parts.text ≠ []) :
    NumberFormat.parse? (front ++ parts.text) = some (parts.format fill align) := by
  -- what the text from each part on begins with
  have hkind := beginsIn_optional fun kind (_ : kind ∈ parts.kind) => symbol_mem_kindHeads kind
  have hprecision := (beginsIn_precision parts.precision).append hkind (List.subset_cons_self _ _)
  have hgrouping : BeginsIn groupingHeads (parts.grouping.toList ++ (precisionText parts.precision ++
      (parts.kind.map NumberKind.symbol).toList)) := by
    refine BeginsIn.append (fun c hc => ?_) hprecision (by decide)
    have hmem : c ∈ [',', '_'] := h.grouping_mem c (Option.mem_toList.1 (List.mem_of_mem_head? hc))
    exact List.mem_append_left precisionHeads hmem
  have hwidth := (beginsIn_width parts.width).append hgrouping (List.subset_append_right _ _)
  have hzero := (beginsIn_mark (List.mem_cons_self : '0' ∈ zeroHeads) parts.zero).append hwidth
    (List.subset_cons_self _ _)
  have halternate := (beginsIn_mark (List.mem_cons_self : '#' ∈ alternateHeads) parts.alternate).append hzero
    (List.subset_cons_self _ _)
  -- what is read of each part
  have hreadSign := optionalPart_symbol (fun rule (_ : rule ∈ parts.sign) => ofSymbol?_signSymbol rule) halternate
    (forall_of_all (by decide))
  have hreadAlternate := optionalPart_mark parts.alternate hzero (by decide : '#' ∉ zeroHeads)
  have hreadZero := optionalPart_mark parts.zero hwidth (by decide : '0' ∉ widthHeads)
  have hreadWidth := span_widthText parts.width hgrouping
  have hreadGrouping := optionalPart_separator h.grouping_mem hprecision
  have hreadPrecision := spanPrecision_precisionText h.precision_lt hkind
  have hreadKind : optionalPart NumberKind.ofSymbol? (parts.kind.map NumberKind.symbol).toList = (parts.kind, []) := by
    cases parts.kind with
    | none => rfl
    | some kind => exact optionalPart_present (ofSymbol?_kindSymbol kind) []
  have hflag (shown : Bool) : (if shown = true then some () else none).isSome = shown := by cases shown <;> rfl
  unfold NumberFormat.parse?
  rw [if_neg hne, hfront]
  simp only [FormatParts.text, hreadSign, hreadAlternate, hreadZero, hreadWidth, hreadGrouping, hreadPrecision,
    hreadKind, hflag, readBounded?_widthText h.width_lt, ne_eq, not_true_eq_false, if_false]
  rfl

theorem ofSymbol?_align_eq_none {c : Char} (h : c ∉ ['<', '>', '^', '=']) : Alignment.ofSymbol? c = none := by
  unfold Alignment.ofSymbol?
  split
  iterate 4 exact absurd (by decide) h
  rfl

/-- No part has a character that stands for an alignment. -/
theorem FormatParts.IsWritable.ofSymbol?_eq_none {parts : FormatParts} (h : parts.IsWritable) :
    ∀ c ∈ parts.text, Alignment.ofSymbol? c = none := by
  have hdigit {c : Char} (hc : c.isDigit = true) : Alignment.ofSymbol? c = none := by
    refine ofSymbol?_align_eq_none fun hmem => ?_
    have hall : ∀ c ∈ ['<', '>', '^', '='], c.isDigit = false := forall_of_all (by decide)
    exact absurd (hc.symm.trans (hall c hmem)) (by decide)
  have hmark {mark : Char} (hmark : Alignment.ofSymbol? mark = none) (shown : Bool) :
      ∀ c ∈ markText mark shown, Alignment.ofSymbol? c = none := by
    cases shown with
    | false => exact List.forall_mem_nil _
    | true => exact List.forall_mem_singleton.2 hmark
  simp only [FormatParts.text, List.forall_mem_append]
  -- The two marks are done; there remain the sign, the width, the separator, the precision and the kind.
  refine ⟨?_, hmark rfl _, hmark rfl _, ?_, ?_, ?_, ?_⟩
  · cases parts.sign with
    | none => exact List.forall_mem_nil _
    | some rule => cases rule <;> exact List.forall_mem_singleton.2 rfl
  · unfold widthText
    split
    · exact List.forall_mem_nil _
    · exact fun c hc => hdigit (isDigit_decimalDigits hc)
  · intro c hc
    have hall : ∀ c ∈ [',', '_'], Alignment.ofSymbol? c = none := forall_of_all (by decide)
    exact hall c (h.grouping_mem c (Option.mem_toList.1 hc))
  · cases parts.precision with
    | none => exact List.forall_mem_nil _
    | some places => exact List.forall_mem_cons.2 ⟨rfl, fun c hc => hdigit (isDigit_decimalDigits hc)⟩
  · cases parts.kind with
    | none => exact List.forall_mem_nil _
    | some kind => cases kind <;> exact List.forall_mem_singleton.2 rfl

/-- Without a fill and an alignment the parts are read as they are. -/
theorem FormatParts.parse?_alone {parts : FormatParts} (h : parts.IsWritable) (hne : parts.text ≠ []) :
    NumberFormat.parse? parts.text = some (parts.format none none) :=
  @parse?_parts parts h [] none none (spanAlignment_absent h.ofSymbol?_eq_none) hne

/-! ### What can be read -/

theorem exists_of_optionalPart {α : Type} {meaning : Char → Option α} {text : List Char} {a : α}
    (h : (optionalPart meaning text).1 = some a) : ∃ c, meaning c = some a := by
  cases text with
  | nil => cases h
  | cons c rest =>
    rw [optionalPart] at h
    cases hc : meaning c with
    | none =>
      rw [hc] at h
      cases h
    | some b =>
      rw [hc] at h
      exact ⟨c, hc.trans h⟩

theorem fill_ne_of_spanAlignment {text : List Char} {fill : Char} (h : (spanAlignment text).1 = some fill) :
    fill ≠ '\n' := by
  unfold spanAlignment at h
  split at h
  · split at h
    · split at h
      · cases h
      · rename_i hne
        cases h
        exact hne
    · cases h
    · cases h
  · cases h

theorem lt_of_readBounded? {limit n : Nat} {digits : List Char} (h : readBounded? limit digits = some n) :
    n < limit :=
  of_decide_eq_true (Option.filter_eq_some_iff.1 h).2

theorem lt_of_spanPrecision {text : List Char} {places : Nat} (h : (spanPrecision text).1 = some places) :
    places < countLimit := by
  unfold spanPrecision at h
  split at h
  · split at h
    · cases h
    · exact lt_of_readBounded? h
  · cases h

theorem getD_of_forall {α : Type} {p : α → Prop} {part : Option α} {default : α} (h : ∀ a ∈ part, p a)
    (hdefault : p default) : p (part.getD default) := by
  cases part with
  | none => exact hdefault
  | some a => exact h a rfl

/-! ### Formats written in full -/

namespace NumberFormat

/-- A format that can be written: its fill is no line feed, its separator is one of the two that there are, and its
width and precision are counts. -/
structure IsWritable (format : NumberFormat) : Prop where
  fill_ne : format.fill ≠ '\n'
  width_lt : format.width < 2 ^ 64
  grouping_mem : ∀ separator ∈ format.grouping, separator ∈ [',', '_']
  precision_lt : ∀ places ∈ format.precision, places < 2 ^ 64

/-- A format with its fill, its alignment and its sign written out. -/
def text (format : NumberFormat) : List Char :=
  format.fill :: format.align.symbol :: format.sign.symbol :: (markText '#' format.alternate ++
    (widthText format.width ++ (format.grouping.toList ++ (precisionText format.precision ++
      (format.kind.map NumberKind.symbol).toList))))

/-- A format is read from its text exactly as it is. -/
theorem parse?_text {format : NumberFormat} (h : format.IsWritable) : parse? format.text = some format := by
  let parts : FormatParts :=
    { sign := some format.sign, alternate := format.alternate, width := format.width, grouping := format.grouping,
      precision := format.precision, kind := format.kind }
  have hparts : parts.IsWritable :=
    { width_lt := h.width_lt, grouping_mem := h.grouping_mem, precision_lt := h.precision_lt }
  have hfront := spanAlignment_written h.fill_ne format.align parts.text
  exact @parse?_parts parts hparts [format.fill, format.align.symbol] _ _ hfront (List.cons_ne_nil _ _)

/-- The fill means an alignment and the width is the greatest there is. -/
def widest : NumberFormat where
  fill := '='
  align := .center
  sign := .plus
  alternate := true
  width := 2 ^ 64 - 1
  grouping := some '_'
  precision := some 0
  kind := some .percent

theorem parse?_text_widest :
    widest.IsWritable ∧ String.ofList widest.text = "=^+#18446744073709551615_.0%" ∧
      parse? widest.text = some widest := by
  have hwritable : widest.IsWritable :=
    { fill_ne := by decide, width_lt := by decide, grouping_mem := by rintro _ ⟨⟩; decide,
      precision_lt := by rintro _ ⟨⟩; decide }
  exact ⟨hwritable, by decide +kernel, parse?_text hwritable⟩

/-- What is read can be written. -/
theorem isWritable_of_parse? {text : List Char} {format : NumberFormat} (h : parse? text = some format) :
    format.IsWritable := by
  unfold parse? at h
  split at h
  · cases h
  · dsimp only at h
    split at h
    · cases h
    · rw [Option.some.injEq] at h
      subst h
      -- Of each part either what was read in its place is taken, or what stands for an absent one.
      refine ⟨?_, ?_, ?_, ?_⟩ <;> dsimp only
      · refine getD_of_forall (fun fill hfill => fill_ne_of_spanAlignment hfill) ?_
        split <;> decide
      · exact getD_of_forall (fun width hwidth => lt_of_readBounded? hwidth) (by decide)
      · intro separator hseparator
        obtain ⟨c, hc⟩ := exists_of_optionalPart hseparator
        split at hc
        · rename_i hown
          cases hc
          simpa using hown
        · cases hc
      · exact fun places hplaces => lt_of_spanPrecision hplaces

end NumberFormat

end SequenceNotation.Format
