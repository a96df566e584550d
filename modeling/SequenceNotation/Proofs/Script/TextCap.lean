import SequenceNotation.Proofs.Script.Ledger
import SequenceNotation.Proofs.Script.TextSize

/-!
# No text beyond the cap

Of all that a run meets, the variables at every point of it and every value in between, nothing holds a
text that is longer than a script may build, if no text is longer that the run is given, in the variables,
the arguments or the string literals.
-/

namespace SequenceNotation.Script

/-- All variables of the machine have capped values. -/
abbrev Machine.Capped (m : Machine) : Prop :=
  m.Holds Value.Capped

/-- How a statement ends, with a capped value if with any. -/
abbrev Flow.Capped (flow : Flow) : Prop :=
  flow.Holds Value.Capped

/-- What the ledger holds of a run from the machine is capped: the variables at every point of it, every
value in between, and the result.  The ledger tells of the run itself: the result and the last machine are
those of the run on the bare machine. -/
abbrev StaysCapped {α : Type} (P : α → Prop) (noted : RunOn Ledger α) (run : Run α) (m : Machine) : Prop :=
  StaysKept (fun _ => Value.Capped) (fun _ => P) noted run m

/-- No run makes a text longer than the cap.  This holds of expressions, programs and the bodies of
functions with string literals that fit, and of calls with functions and arguments that are capped, from
every machine with capped variables. -/
theorem texts_fit {m : Machine} (hm : m.Capped) :
    (∀ expression : Expression, (∀ t ∈ expression.literals, Fits t) →
      StaysCapped Value.Capped (notingInterpreter.evaluate expression)
        (interpreter.evaluate expression) m) ∧
    (∀ program, (∀ t ∈ Statement.listLiterals program, Fits t) →
      StaysCapped Flow.Capped (notingInterpreter.executeAll program)
        (interpreter.executeAll program) m ∧
      StaysCapped Value.Capped (notingInterpreter.bodyValue program)
        (interpreter.bodyValue program) m) ∧
    ∀ function arguments, Value.Capped function → (∀ value ∈ arguments, value.Capped) →
      StaysCapped Value.Capped (notingInterpreter.call function arguments)
        (interpreter.call function arguments) m :=
  capped_invariant.runs hm

/-- A machine with `s = 'ab'` global. -/
def greetingMachine : Machine :=
  { budget := ⟨1, 100⟩, globals := [("s", .text "ab")] }

/-- The expression `s + 'c'`. -/
def greeting : Expression :=
  .binary .add (.name "s") (.text "c")

theorem greetingMachine_capped : greetingMachine.Capped where
  globals p hp := by
    rw [List.mem_singleton.1 hp]
    exact .text (by decide)
  calls _ hframe := absurd hframe List.not_mem_nil

/-- The sum and both of its parts are listed, and they fit; so do `s += 'c'` and `x => s + 'c'`. -/
theorem greeting_fits :
    ((notingInterpreter.evaluate greeting).outcome ⟨⟨greetingMachine, []⟩, []⟩).2.values.map
        Value.toText = ["abc", "c", "ab"] ∧
      StaysCapped Value.Capped (notingInterpreter.evaluate greeting) (interpreter.evaluate greeting)
        greetingMachine ∧
      StaysCapped Flow.Capped
        (notingInterpreter.executeAll [.expression (.assign "s" (some .add) (.text "c"))])
        (interpreter.executeAll [.expression (.assign "s" (some .add) (.text "c"))])
        greetingMachine ∧
      StaysCapped Value.Capped
        (notingInterpreter.call (.function 0 ["x"] (.expression greeting) []) [.text "y"])
        (interpreter.call (.function 0 ["x"] (.expression greeting) []) [.text "y"])
        greetingMachine := by
  have hbody : ∀ t ∈ greeting.literals, Fits t := by decide
  have hprogram : ∀ t ∈ Statement.listLiterals
      [.expression (.assign "s" (some .add) (.text "c"))], Fits t := by decide
  have h := texts_fit greetingMachine_capped
  refine ⟨by decide +kernel, h.1 _ hbody, (h.2.1 _ hprogram).1, h.2.2 _ _ ?_ ?_⟩
  · exact .function hbody (by simp)
  · intro value hvalue
    rw [List.mem_singleton.1 hvalue]
    exact .text (by decide)

end SequenceNotation.Script
