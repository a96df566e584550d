import SequenceNotation.Sequence.Hooks

/-!
# Producers

All kinds of sequence emit in the same way.  The kind finds its own value for the index, the expression
may select another one, the value that is settled becomes the previous one of the next emission, and its
text is inserted.  A producer is what a kind adds to this.
-/

namespace SequenceNotation.Sequence

open SequenceNotation.Script

/-- A text to insert, and whether the sequence stops in front of it. -/
structure Emission where
  text : String
  stop : Bool
  deriving DecidableEq, Repr

/-- Nothing to insert, and the end. -/
def Emission.stopped : Emission :=
  { text := "", stop := true }

/-- What a sequence carries from one emission to the next: the record of placeholders, and how often it
has emitted. -/
structure SequenceState where
  values : PlaceholderValues
  emitted : Nat := 0

/-- How a kind makes its values. -/
structure Producer (α : Type) where
  /-- The kind's own value at an index, given the count of emissions before; none if there can be no
  value. -/
  own? : (emitted index : Nat) → PlaceholderValues → Option (Logged α)
  /-- What the expression sees of the own value. -/
  shown : α → Value
  /-- The value that the result of the expression selects in place of the own one. -/
  select : α → Value → Logged α
  /-- What later expressions see of the value. -/
  settled : α → Value
  text : α → String

namespace Producer

variable {α : Type} (producer : Producer α)

/-- The value that is settled, given the record at the beginning of the emission. -/
def settle (hooks : Hooks) (values : PlaceholderValues) (own : α) : Logged α := do
  match ← hooks.revise (values.setCurrent (producer.shown own)) with
  | some result => producer.select own result
  | none => return own

/-- The record at the end of an emission. -/
def finalValues (values : PlaceholderValues) (own final : α) : PlaceholderValues :=
  (values.setCurrent (producer.shown own)).setAfterExpression (producer.settled final)

/-- Emits at an index. -/
def emit (hooks : Hooks) (state : SequenceState) (index : Nat) :
    Logged (Emission × SequenceState) :=
  let values := hooks.begin state.values index
  match producer.own? state.emitted index values with
  | none => pure (Emission.stopped, state)
  | some own => do
    let own ← own
    let final ← producer.settle hooks values own
    let values := producer.finalValues values own final
    let stop ← hooks.shouldStop values index
    return ({ text := producer.text final, stop }, { values, emitted := state.emitted + 1 })

end Producer

end SequenceNotation.Sequence
