import SequenceNotation.Notation.Modifiers
import SequenceNotation.Script.Snippet
import SequenceNotation.Sequence.Substitution

/-!
# Hooks

A line can hold two expressions that run at every emission: one that revises the value, and one that says
when to stop.  Both see the record of placeholders.  An expression that fails is logged and has no effect.
-/

namespace SequenceNotation.Sequence

open SequenceNotation.Script SequenceNotation.Notation SequenceNotation.Text

structure Hooks where
  /-- The source of the expression; an empty one is none. -/
  expression : String
  /-- The source of the stop expression; an empty one is none. -/
  stopExpression : String
  /-- The texts that are selected, one for each value. -/
  selections : List String
  /-- What each run may use up. -/
  budget : Budget

/-- A text without the blanks at its ends. -/
def trimmed (text : String) : String :=
  String.ofList (trim text.toList)

namespace Hooks

def ofModifiers (modifiers : Modifiers) (selections : List String) (budget : Budget) : Hooks :=
  { expression := trimmed modifiers.expression
    stopExpression := trimmed modifiers.stopExpression
    selections
    budget }

/-- The record before the first emission. -/
def initialValues (hooks : Hooks) (modifiers : Modifiers) (start : Value) : PlaceholderValues :=
  { start, step := .number modifiers.step, selections := hooks.selections.length }

/-- The text selected at an index; empty past the last one. -/
def selection (hooks : Hooks) (index : Nat) : String :=
  (hooks.selections[index]?).getD ""

/-- The record at the beginning of an emission. -/
def begin (hooks : Hooks) (values : PlaceholderValues) (index : Nat) : PlaceholderValues :=
  values.advance index (hooks.selection index)

def hasExpression (hooks : Hooks) : Bool :=
  hooks.expression ≠ ""

/-- The value of the expression, if there is one and it does not fail. -/
def revise (hooks : Hooks) (values : PlaceholderValues) : Logged (Option Value) :=
  if hooks.expression = "" then pure none
  else
    let source := substitute hooks.expression values
    match evaluate hooks.budget source with
    | .ok value => do
      Logged.debug ("expression '" ++ source ++ "' gave " ++ value.toText)
      return some value
    | .error fault => do
      Logged.warn ("expression '" ++ source ++ "' failed: " ++ fault.message)
      return none

/-- Whether the sequence stops at an index: when the stop expression is true, or without one behind the
last selection. -/
def shouldStop (hooks : Hooks) (values : PlaceholderValues) (index : Nat) : Logged Bool :=
  if hooks.stopExpression = "" then pure (hooks.selections.length ≤ index)
  else
    let source := substitute hooks.stopExpression values
    match evaluate hooks.budget source with
    | .ok value => pure value.isTruthy
    | .error fault => do
      Logged.warn ("stop expression '" ++ source ++ "' failed: " ++ fault.message)
      return false

end Hooks

end SequenceNotation.Sequence
