import SequenceNotation.Format.Padding
import SequenceNotation.Proofs.Format.WrittenFormat

/-!
# Padded texts

A padding is written part by part, like a number format, and is read from its text whatever its fill is.  What it adds
to a value is fill alone: as much as the value lacks, on the sides it asks for.  A text that is no padding adds nothing.
-/

namespace SequenceNotation.Format

open SequenceNotation.Number SequenceNotation.Text SequenceNotation.Notation

/-! ### Written paddings -/

def PaddedSide.symbol : PaddedSide → Char
  | left => '<'
  | right => '>'
  | center => '='

/-- What stands in front of a width: nothing, a side, or a side behind a fill. -/
inductive WrittenSide where
  | absent
  | plain (side : PaddedSide)
  | filled (fill : Char) (side : PaddedSide)

namespace WrittenSide

def text : WrittenSide → List Char
  | absent => []
  | plain side => [side.symbol]
  | filled fill side => [fill, side.symbol]

def fill? : WrittenSide → Option Char
  | filled fill _ => some fill
  | _ => none

def side? : WrittenSide → Option PaddedSide
  | absent => none
  | plain side => some side
  | filled _ side => some side

end WrittenSide

/-- A padding as it is written.  Its fill is any character but a line feed, its width a count in ASCII digits. -/
structure WrittenPadding where
  front : WrittenSide := .absent
  digits : List Char
  lastOnly : Bool := false
  bias : Option Char := none
  fill_ne : ∀ fill ∈ front.fill?, fill ≠ '\n'
  digits_ne_nil : digits ≠ []
  isAscii_digits : IsAscii digits
  width_lt : digitsValue digits < 2 ^ 64
  bias_mem : ∀ c ∈ bias, c ∈ ['l', 'r']

namespace WrittenPadding

variable (written : WrittenPadding)

def width : Nat :=
  digitsValue written.digits

/-- What stands behind the width. -/
def ending : List Char :=
  markText 'w' written.lastOnly ++ written.bias.toList

def text : List Char :=
  written.front.text ++ (written.digits ++ written.ending)

/-- What the text says.  Left out, the fill is a blank and the side the right one. -/
def padding : Padding where
  fill := written.front.fill?.getD ' '
  side := written.front.side?.getD .right
  width := written.width
  lastOnly := written.lastOnly
  oddFillLeft := written.bias = some 'r'

end WrittenPadding

/-! ### Reading what is written -/

theorem ofSymbol?_sideSymbol (side : PaddedSide) : PaddedSide.ofSymbol? side.symbol = some side := by
  cases side <;> rfl

theorem ofSymbol?_side_eq_none {c : Char} (h : c ∉ ['<', '>', '=']) : PaddedSide.ofSymbol? c = none := by
  unfold PaddedSide.ofSymbol?
  split
  iterate 3 exact absurd (by decide) h
  rfl

/-- A fill and a side are read as they are written, unless another side follows them. -/
theorem spanSide_written {front : WrittenSide} (hfill : ∀ fill ∈ front.fill?, fill ≠ '\n') {rest : List Char}
    (h : ∀ c ∈ rest, PaddedSide.ofSymbol? c = none) :
    spanSide (front.text ++ rest) = (front.fill?, front.side?, rest) := by
  have hnext {rest : List Char} (h : ∀ c ∈ rest, PaddedSide.ofSymbol? c = none) :
      rest.head?.bind PaddedSide.ofSymbol? = none :=
    Option.bind_eq_none_iff.2 fun c hc => h c (List.mem_of_mem_head? hc)
  cases front with
  | absent =>
    cases rest with
    | nil => rfl
    | cons first rest =>
      show spanSide (first :: rest) = (none, none, first :: rest)
      rw [spanSide, hnext fun c hc => h c (.tail _ hc), h first (.head _)]
  | plain side =>
    show spanSide (side.symbol :: rest) = (none, some side, rest)
    rw [spanSide, hnext h, ofSymbol?_sideSymbol]
  | filled fill side =>
    show spanSide (fill :: side.symbol :: rest) = (some fill, some side, rest)
    rw [spanSide, List.head?_cons, Option.bind_some, ofSymbol?_sideSymbol]
    exact if_neg (hfill fill rfl)

/-- What is read as a fill and a side stands in front of the rest. -/
theorem exists_of_spanSide {text rest : List Char} {fill : Option Char} {side : Option PaddedSide}
    (h : spanSide text = (fill, side, rest)) :
    ∃ front : WrittenSide, text = front.text ++ rest ∧ ∀ fill ∈ front.fill?, fill ≠ '\n' := by
  have hsymbol {c : Char} {side : PaddedSide} (hc : PaddedSide.ofSymbol? c = some side) : c = side.symbol := by
    unfold PaddedSide.ofSymbol? at hc
    split at hc <;> cases hc <;> rfl
  unfold spanSide at h
  split at h
  · rename_i first more
    split at h
    · -- a side at the second place has a fill in front of it, but a line break fills nothing
      rename_i side' hsecond
      split at h
      · cases h
        exact ⟨.absent, rfl, nofun⟩
      · rename_i hne
        cases h
        obtain ⟨c, hc, hside⟩ := Option.bind_eq_some_iff.1 hsecond
        obtain ⟨more, rfl⟩ := List.head?_eq_some_iff.1 hc
        refine ⟨.filled first side', by rw [hsymbol hside]; rfl, ?_⟩
        rintro _ ⟨⟩
        exact hne
    · -- a side alone
      rename_i side' _ hfirst
      cases h
      exact ⟨.plain side', by rw [hsymbol hfirst]; rfl, nofun⟩
    · cases h
      exact ⟨.absent, rfl, nofun⟩
  · cases h
    exact ⟨.absent, rfl, nofun⟩

namespace WrittenPadding

variable (written : WrittenPadding)

/-- Neither the width nor what stands behind it has a character that stands for a side. -/
theorem ofSymbol?_eq_none : ∀ c ∈ written.digits ++ written.ending, PaddedSide.ofSymbol? c = none := by
  have hdigit : ∀ c ∈ ['<', '>', '='], c.isDigit = false := forall_of_all (by decide)
  have hbias : ∀ c ∈ ['l', 'r'], PaddedSide.ofSymbol? c = none := forall_of_all (by decide)
  simp only [ending, List.forall_mem_append]
  refine ⟨fun c hc => ofSymbol?_side_eq_none fun hmem => ?_, ?_, fun c hc => ?_⟩
  · exact absurd ((hdigit c hmem).symm.trans (written.isAscii_digits c hc)) (by decide)
  · cases written.lastOnly with
    | false => exact List.forall_mem_nil _
    | true => exact List.forall_mem_singleton.2 rfl
  · exact hbias c (written.bias_mem c (Option.mem_toList.1 hc))

theorem readBounded?_digits : readBounded? countLimit written.digits = some written.width := by
  rw [Notation.readBounded?_digits written.digits_ne_nil (fun c hc => holds_digit (written.isAscii_digits c hc)),
    scriptValue_of_isAscii written.isAscii_digits, if_pos ⟨written.isAscii_digits, written.width_lt⟩]
  rfl

/-- A padding is read from its text exactly as it says. -/
theorem parse?_written : Padding.parse? written.text = some written.padding := by
  have hbias : BeginsIn ['l', 'r'] written.bias.toList := fun c hc =>
    written.bias_mem c (Option.mem_toList.1 (List.mem_of_mem_head? hc))
  have hending : BeginsIn ['w', 'l', 'r'] written.ending :=
    (beginsIn_mark List.mem_cons_self written.lastOnly).append hbias (List.subset_cons_self _ _)
  -- what is read of each part
  have hreadSide := spanSide_written written.fill_ne written.ofSymbol?_eq_none
  have hreadDigits := span_isDecimalDigit (fun c hc => holds_digit (written.isAscii_digits c hc)) hending
    (forall_of_all (by decide))
  have hreadLast : optionalPart (fun c => if c = 'w' then some () else none) written.ending =
      (if written.lastOnly then some () else none, written.bias.toList) :=
    optionalPart_mark written.lastOnly hbias (by decide : 'w' ∉ ['l', 'r'])
  have hreadBias : optionalPart (fun c => if c = 'l' ∨ c = 'r' then some c else none) written.bias.toList =
      (written.bias, []) := by
    cases hc : written.bias with
    | none => rfl
    | some c =>
      refine optionalPart_present (if_pos ?_) []
      simpa using written.bias_mem c hc
  have hflag : (if written.lastOnly = true then some () else none).isSome = written.lastOnly := by
    cases written.lastOnly <;> rfl
  unfold Padding.parse? text
  rw [hreadSide]
  simp only [hreadDigits, hreadLast, hreadBias, written.readBounded?_digits, hflag, ne_eq, not_true_eq_false,
    if_false]
  rfl

end WrittenPadding

/-- Digits are ASCII and below the bound where a count is read from them. -/
theorem of_readBounded?_digits {digits : List Char} (hall : ∀ c ∈ digits, isDecimalDigit c) {bound n : Nat}
    (h : readBounded? bound digits = some n) : digits ≠ [] ∧ IsAscii digits ∧ digitsValue digits < bound := by
  have hne : digits ≠ [] := by
    rintro rfl
    cases h
  rw [readBounded?_digits hne hall] at h
  split at h
  · rename_i hread
    exact ⟨hne, hread.1, scriptValue_of_isAscii hread.1 ▸ hread.2⟩
  · cases h

/-- A part stands in front of the rest if it is read, and else there is only the rest. -/
theorem optionalPart_cases {α : Type} {meaning : Char → Option α} {text rest : List Char} {part : Option α}
    (h : optionalPart meaning text = (part, rest)) :
    part = none ∧ text = rest ∨ ∃ c, (meaning c).isSome ∧ part = meaning c ∧ text = c :: rest := by
  cases text with
  | nil =>
    cases h
    exact .inl ⟨rfl, rfl⟩
  | cons c text =>
    rw [optionalPart] at h
    split at h
    · rename_i a hc
      cases h
      exact .inr ⟨c, by rw [hc]; rfl, hc.symm, rfl⟩
    · cases h
      exact .inl ⟨rfl, rfl⟩

/-- Every padding that is read is written so. -/
theorem exists_written_of_parse? {text : List Char} {padding : Padding} (h : Padding.parse? text = some padding) :
    ∃ written : WrittenPadding, written.text = text := by
  unfold Padding.parse? at h
  rcases hside : spanSide text with ⟨fill, side, behind⟩
  rcases hdigits : behind.span isDecimalDigit with ⟨digits, ending⟩
  rcases hlast : optionalPart (fun c => if c = 'w' then some () else none) ending with ⟨last, more⟩
  rcases hbias : optionalPart (fun c => if c = 'l' ∨ c = 'r' then some c else none) more with ⟨bias, rest⟩
  simp only [hside, hdigits, hlast, hbias] at h
  split at h
  · cases h
  · rename_i hrest
    obtain rfl : rest = [] := not_not.1 hrest
    obtain ⟨width, hwidth, -⟩ := Option.bind_eq_some_iff.1 h
    -- each part stands in front of the next one
    obtain ⟨front, rfl, hfill⟩ := exists_of_spanSide hside
    rw [List.span_eq_takeWhile_dropWhile, Prod.mk.injEq] at hdigits
    obtain ⟨rfl, rfl⟩ := hdigits
    obtain ⟨hne, hascii, hlt⟩ := of_readBounded?_digits (List.all_eq_true.1 List.all_takeWhile) hwidth
    have hlast : behind.dropWhile isDecimalDigit = markText 'w' last.isSome ++ more := by
      obtain ⟨rfl, heq⟩ | ⟨c, hc, rfl, heq⟩ := optionalPart_cases hlast
      · exact heq
      · obtain rfl : c = 'w' := by simpa using hc
        exact heq
    have hbias : more = bias.toList ∧ ∀ c ∈ bias, c ∈ ['l', 'r'] := by
      obtain ⟨rfl, heq⟩ | ⟨c, hc, rfl, heq⟩ := optionalPart_cases hbias
      · exact ⟨heq, nofun⟩
      · have hown : c = 'l' ∨ c = 'r' := by simpa using hc
        rw [if_pos hown]
        refine ⟨heq, ?_⟩
        rintro _ ⟨⟩
        simpa using hown
    let written : WrittenPadding :=
      { front, digits := behind.takeWhile isDecimalDigit, lastOnly := last.isSome, bias, fill_ne := hfill,
        digits_ne_nil := hne, isAscii_digits := hascii, width_lt := hlt, bias_mem := hbias.2 }
    refine ⟨written, ?_⟩
    show front.text ++ (behind.takeWhile isDecimalDigit ++ (markText 'w' last.isSome ++ bias.toList)) =
      front.text ++ behind
    rw [← hbias.1, ← hlast, List.takeWhile_append_dropWhile]

/-! ### Fill -/

/-- The counts of fill that a side allows on the left and on the right.  In the middle they differ by one at most, and
the odd fill stands on the right unless it is wanted on the left. -/
def PaddedSide.Allows (side : PaddedSide) (oddFillLeft : Bool) (left right : Nat) : Prop :=
  match side with
  | .left => left = 0
  | .right => right = 0
  | .center => if oddFillLeft then right ≤ left ∧ left ≤ right + 1 else left ≤ right ∧ right ≤ left + 1

namespace Padding

variable (padding : Padding) (missing : Nat)

/-- What is missing stands on one side or the other. -/
theorem shares_add : (padding.shares missing).1 + (padding.shares missing).2 = missing := by
  unfold shares
  split
  · exact Nat.zero_add missing
  · rfl
  · split <;> dsimp only <;> omega

theorem allows_shares :
    padding.side.Allows padding.oddFillLeft (padding.shares missing).1 (padding.shares missing).2 := by
  unfold shares PaddedSide.Allows
  cases padding.side with
  | left => rfl
  | right => rfl
  | center =>
    cases padding.oddFillLeft with
    | false => simp only [Bool.false_eq_true, if_false]; omega
    | true => simp only [if_true]; omega

theorem length_apply (text : List Char) :
    (padding.apply text).length =
      if padding.lastOnly then text.getLast?.toList.length + (padding.width - text.length)
      else max padding.width text.length := by
  have hshares := padding.shares_add (padding.width - text.length)
  simp only [apply, List.length_append, List.length_replicate]
  split <;> omega

theorem toList_padText {spec : String} {padding : Padding} (h : parse? spec.toList = some padding) (value : String) :
    (padText value spec).toList = padding.apply value.toList := by
  rw [padText, h, String.toList_ofList]

end Padding

/-- The odd fill on the left, and the last character alone. -/
example : padText "x" "-=6r" = "---x--" ∧ padText "abc" "*>5w" = "**c" := by
  decide

end SequenceNotation.Format
