import SequenceNotation.Sequence.Kind.Items

/-!
# Computed sequences

The values are the selected texts themselves, the values of an expression, or those of a function that is
called at every index.
-/

namespace SequenceNotation.Sequence

open SequenceNotation.Number SequenceNotation.Script SequenceNotation.Notation

/-- A text that reads as a number is that number. -/
def numberOrText (text : String) : Value :=
  match (Value.text text).numeric? with
  | some n => .number n
  | none => .text text

/-- The result of an expression, if it is defined. -/
def definedResult (own result : Value) : Value :=
  if result.isUndefined then own else result

/-- The selected texts. -/
structure SelectedText where
  padding : Option String

/-- The expression selects the text of its result. -/
def SelectedText.producer (sequence : SelectedText) : Producer String where
  own? _ _ values := some (pure values.selected)
  shown := .text
  select own result := pure (textOfResult own result)
  settled := .text
  text := renderText sequence.padding

/-- The values of an expression. -/
structure ExpressionSequence where
  source : String
  numberFormat : Option String
  padding : Option String

namespace ExpressionSequence

variable (sequence : ExpressionSequence)

/-- The value of the expression; one that fails is logged and has none. -/
def result (budget : Budget) (values : PlaceholderValues) : Logged Value :=
  let source := substitute sequence.source (values.setCurrent (.text values.selected))
  match evaluate budget source with
  | .ok value => pure value
  | .error fault => do
    Logged.warn ("expression '" ++ source ++ "' failed: " ++ fault.message)
    return .undefined

/-- An empty value gives way to the selected text, and an empty one of those to the position. -/
def fallback (index : Nat) (selected : String) (value : Value) : Value :=
  if !value.isEmpty then value
  else if selected ≠ "" then .text selected
  else .number (Double.ofNat index + 1)

/-- The own value at an index. -/
def valueAt (budget : Budget) (index : Nat) (values : PlaceholderValues) : Logged Value := do
  let value ← sequence.result budget values
  return fallback index values.selected value

/-- The expression modifier selects its result. -/
def producer (budget : Budget) : Producer Value where
  own? _ index values := some (sequence.valueAt budget index values)
  shown := id
  select own result := pure (definedResult own result)
  settled := id
  text := renderValue sequence.numberFormat sequence.padding

end ExpressionSequence

/-- The values of a function.  Folding is left to the function. -/
structure FunctionSequence where
  /-- The function, unless it is missing or cannot be compiled. -/
  callable : Option Callable
  startAt : Value
  folding : Folding
  numberFormat : Option String
  padding : Option String

namespace FunctionSequence

variable (sequence : FunctionSequence)

/-- A bound as an argument; an absent one is infinite. -/
def boundArgument (bound : Option Nat) : Value :=
  .number ((bound.map Double.ofNat).getD Double.posInfinity)

/-- The arguments at an index. -/
def arguments (index : Nat) : List Value :=
  [.number (Double.ofNat index), sequence.startAt, .number sequence.folding.step,
   .number (Double.ofNat sequence.folding.frequency), boundArgument sequence.folding.repetition,
   boundArgument sequence.folding.startover]

/-- The result of a call; one that fails is logged and undefined. -/
def call (budget : Budget) (index : Nat) (callable : Callable) : Logged Value :=
  match callable.call budget (sequence.arguments index) with
  | .ok value => pure value
  | .error fault => do
    Logged.warn ("function call for index " ++ toString index ++ " failed: " ++ fault.message)
    return .undefined

/-- The expression modifier selects its result. -/
def producer (budget : Budget) : Producer Value where
  own? _ index _ := sequence.callable.map (sequence.call budget index)
  shown := id
  select own result := pure (definedResult own result)
  settled := id
  text := renderValue sequence.numberFormat sequence.padding

end FunctionSequence

end SequenceNotation.Sequence
