import SequenceNotation.Proofs.Script.Identity
import SequenceNotation.Proofs.Script.Ledger

/-!
# The numbering of functions

A new function gets the next number, so no function within reach of a machine has a number that is still
to come.  Every run keeps this, at each of its points and for every value in between.
-/

namespace SequenceNotation.Script

theorem Value.CreatedBefore.mono {n n' : Nat} {v : Value} (hn : n ≤ n') (h : v.CreatedBefore n) :
    v.CreatedBefore n' := by
  induction h with
  | function hid _ ih => exact .function (Nat.lt_of_lt_of_le hid hn) ih
  | undefined => exact .undefined
  | null => exact .null
  | boolean b => exact .boolean b
  | number x => exact .number x
  | text s => exact .text s

/-- Only the creation of a function gives a new number. -/
theorem createdBefore_invariant : ValueInvariant (fun _ => True) fun n v => v.CreatedBefore n where
  property n :=
    { made := fun h => by
        cases h with
        | undefined => exact .undefined
        | null => exact .null
        | boolean b => exact .boolean b
        | number x => exact .number x
        | text => exact .text _
      fits := fun _ => trivial
      shown := fun _ => trivial
      method := fun _ _ => trivial
      function := fun h => by
        cases h with
        | function _ hcaptured => exact ⟨.all, hcaptured⟩ }
  later := Value.CreatedBefore.mono
  create _ hcaptured := .function (Nat.lt_succ_self _) fun p hp =>
    (hcaptured p hp).mono (Nat.le_succ _)

/-- The machine has created all functions within reach of its variables. -/
abbrev Machine.Counted (m : Machine) : Prop :=
  m.Holds fun value => value.CreatedBefore m.created

/-- A machine without variables. -/
theorem Machine.counted_new (budget : Budget) (created : Nat) : Machine.Counted { budget, created } where
  globals _ hp := absurd hp List.not_mem_nil
  calls _ hframe := absurd hframe List.not_mem_nil

/-- A run that has met only functions its machines have created, in variables and values, and ends with
such a result. -/
abbrev StaysCounted {α : Type} (R : Nat → α → Prop) (noted : RunOn Ledger α) (run : Run α)
    (m : Machine) : Prop :=
  StaysKept (fun n value => value.CreatedBefore n) R noted run m

/-- Expressions, programs and calls run through machines that have created all functions within reach, as
on a new machine. -/
theorem runs_counted {m : Machine} (hm : m.Counted) :
    (∀ expression, StaysCounted (fun n value => value.CreatedBefore n)
      (notingInterpreter.evaluate expression) (interpreter.evaluate expression) m) ∧
    (∀ program, StaysCounted (fun n flow => flow.Holds fun value => value.CreatedBefore n)
      (notingInterpreter.executeAll program) (interpreter.executeAll program) m) ∧
    ∀ function arguments, function.CreatedBefore m.created →
      (∀ value ∈ arguments, value.CreatedBefore m.created) →
        StaysCounted (fun n value => value.CreatedBefore n) (notingInterpreter.call function arguments)
          (interpreter.call function arguments) m := by
  obtain ⟨hevaluate, hexecute, hcall⟩ := createdBefore_invariant.runs hm
  refine ⟨fun expression => ?_, fun program => ?_, hcall⟩
  · exact hevaluate expression fun _ _ => trivial
  · exact (hexecute program fun _ _ => trivial).1

end SequenceNotation.Script
