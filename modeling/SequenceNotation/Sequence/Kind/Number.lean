import SequenceNotation.Sequence.Kind.Draw
import SequenceNotation.Sequence.Producer
import SequenceNotation.Sequence.Rendering

/-!
# Sequences of numbers

Numbers go on from the start by the step, or are drawn at random.  They are printed like the start: in
its radix, with its count of places and its leading zeros.
-/

namespace SequenceNotation.Sequence

open SequenceNotation.Number SequenceNotation.Script SequenceNotation.Notation
open SequenceNotation.Text SequenceNotation.Format

structure NumberSequence where
  start : DecimalStart
  folding : Folding
  format : Option String
  showRadix : Bool
  seed : Nat

namespace NumberSequence

variable (sequence : NumberSequence)

/-- The number at an index; a draw depends on the count of emissions before. -/
def valueAt (emitted index : Nat) : Double :=
  match sequence.start.random with
  | some spread => draw (outcome sequence.seed emitted) sequence.start.value spread
  | none => sequence.start.value + sequence.folding.logicalIndex index

/-- The count of places of printed numbers, if it is fixed: that of the start, or of a draw if that is
greater. -/
def places? : Option Nat :=
  match sequence.start.random with
  | some spread =>
    if spread.precision = 0 then sequence.start.precision
    else some (max (sequence.start.precision.getD 0) spread.precision)
  | none => sequence.start.precision

/-- Digits with zeros in front of them, as many as the start asks for. -/
def withLeadingZeros (digits : List Char) : List Char :=
  zeroPadded (sequence.start.leadWidth.getD 0) digits

/-- A magnitude in the radix of the start. -/
def radixText (magnitude : Double) : List Char :=
  let radix := sequence.start.radix
  (if sequence.showRadix then radix.marker.toList else []) ++
    sequence.withLeadingZeros
      (radixNumeral radix.base sequence.start.uppercase magnitude.round.toNat64)

/-- A magnitude in decimal notation. -/
def decimalText (magnitude : Double) : List Char :=
  let text := match sequence.places? with
    | some places => magnitude.toFixed places
    | none => magnitude.toText
  let (whole, fraction) := splitPoint text.toList
  sequence.withLeadingZeros whole ++ fraction

/-- A number printed like the start.  A decimal whose digits are all zero has no sign. -/
def plainText (value : Double) : List Char :=
  let signed (text : List Char) := if value.less 0 then '-' :: text else text
  if sequence.start.radix ≠ .decimal then signed (sequence.radixText value.abs)
  else
    let text := sequence.decimalText value.abs
    if text.all fun c => c = '0' || c = '.' then text else signed text

/-- The text of a number. -/
def render (value : Double) : String :=
  match sequence.format with
  | some spec => formatNumber value spec
  | none => if value.isFinite then String.ofList (sequence.plainText value) else value.toText

/-- The expression selects the finite number that it gives. -/
def producer : Producer Double where
  own? emitted index _ := some (pure (sequence.valueAt emitted index))
  shown := .number
  select own result := pure (result.finiteNumber?.getD own)
  settled := .number
  text := sequence.render

end NumberSequence

end SequenceNotation.Sequence
