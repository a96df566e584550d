import SequenceNotation.Format.NumberFormat
import SequenceNotation.Format.Padding
import SequenceNotation.Script.Value

/-!
# Rendering

How values become the texts that are inserted: numbers by a number format, and all other values by a
padding, if there is one.
-/

namespace SequenceNotation.Sequence

open SequenceNotation.Script SequenceNotation.Format

/-- The format of a line, else that of the settings; an empty one is none. -/
def pickFormat (own : Option String) (setting : String) : Option String :=
  (own.filter (· ≠ "")).or (if setting = "" then none else some setting)

/-- A text in its padding. -/
def renderText (padding : Option String) (text : String) : String :=
  match padding with
  | some spec => padText text spec
  | none => text

/-- A value of any type. -/
def renderValue (numberFormat padding : Option String) (value : Value) : String :=
  match value with
  | .number n =>
    match numberFormat with
    | some spec => formatNumber n spec
    | none => n.toText
  | other => renderText padding other.toOutput

end SequenceNotation.Sequence
