import SequenceNotation.Script.Value

/-!
# Placeholders

The single letters that stand for a value of the sequence inside an expression, and the record of these
values.  The record is all that a sequence carries from one emission to the next.
-/

namespace SequenceNotation.Sequence

open SequenceNotation.Number SequenceNotation.Script

inductive Placeholder where
  /-- `_`, the value before the expression. -/
  | current
  /-- `o`, the text of the selection. -/
  | selected
  /-- `c`, the start value. -/
  | start
  /-- `p`, the value settled for the emission before. -/
  | previous
  /-- `a`, the value after the expression. -/
  | afterExpression
  /-- `s`, the step. -/
  | step
  /-- `n`, the number of selections. -/
  | selections
  /-- `i`, the index of the emission. -/
  | index
  deriving DecidableEq, Repr

/-- The placeholder that a letter names, in either case. -/
def Placeholder.ofChar? (c : Char) : Option Placeholder :=
  match c.toLower with
  | '_' => some .current
  | 'o' => some .selected
  | 'c' => some .start
  | 'p' => some .previous
  | 'a' => some .afterExpression
  | 's' => some .step
  | 'n' => some .selections
  | 'i' => some .index
  | _ => none

/-- What the placeholders stand for. -/
structure PlaceholderValues where
  current : Value := .undefined
  afterExpression : Value := .undefined
  previous : Value := .undefined
  selected : String := ""
  start : Value
  step : Value
  selections : Nat
  index : Nat := 0

namespace PlaceholderValues

/-- Begins a new index: the value after the expression becomes the previous one. -/
def advance (values : PlaceholderValues) (index : Nat) (selected : String) : PlaceholderValues :=
  { values with
    index
    selected
    previous := values.afterExpression
    afterExpression := .undefined
    current := .undefined }

def setCurrent (values : PlaceholderValues) (value : Value) : PlaceholderValues :=
  { values with current := value }

def setAfterExpression (values : PlaceholderValues) (value : Value) : PlaceholderValues :=
  { values with afterExpression := value }

def lookup (values : PlaceholderValues) : Placeholder → Value
  | .current => values.current
  | .selected => .text values.selected
  | .start => values.start
  | .previous => values.previous
  | .afterExpression => values.afterExpression
  | .step => values.step
  | .selections => .number (Double.ofNat values.selections)
  | .index => .number (Double.ofNat values.index)

end PlaceholderValues

end SequenceNotation.Sequence
