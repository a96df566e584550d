import SequenceNotation.Proofs.Script.GrammarCompleteness
import SequenceNotation.Proofs.Script.Halting
import SequenceNotation.Proofs.Script.Lexeme
import SequenceNotation.Script.Snippet

/-!
# The first reading of a snippet

A snippet that is an expression in parentheses, and has a defined value as one, has that value: no other
reading is tried.  The same holds for a used-up budget.  Small trees end before the clock is looked at, so
what they cost is their steps alone.
-/

namespace SequenceNotation.Script

open RunOn (outcome)

/-! ### One step -/

section

variable {expression : Expression} {m : Machine}

/-- A tree within the limits costs a step and is one level deeper. -/
theorem outcome_evaluate (hfuel : m.spent < m.budget.fuel) (hclock : (m.spent + 1) % clockInterval ≠ 0)
    (hdepth : m.depth < maxDepth) :
    (interpreter.evaluate expression).outcome m =
      let after := (interpreter.expressionValue expression).outcome
        { m with spent := m.spent + 1, depth := m.depth + 1 }
      (after.1, { after.2 with depth := after.2.depth - 1 }) := by
  -- first the step is counted, and the clock is not looked at; then the depth
  have htick := Run.outcome_tick m
  have hleft : ¬ (Host.machine m).budget.fuel < (Host.machine m).spent + 1 := Nat.not_lt.2 hfuel
  rw [if_neg hleft, if_neg fun h => hclock h.1] at htick
  have hdeeper := Run.outcome_deeper (interpreter.expressionValue expression) { m with spent := m.spent + 1 }
  have hdeep : ¬ maxDepth ≤ (Host.machine { m with spent := m.spent + 1 }).depth := Nat.not_le.2 hdepth
  rw [if_neg hdeep] at hdeeper
  have habove : interpreter.evaluate expression = interpreter.above.evaluate expression := by
    rw [interpreter_above]
  rw [habove]
  exact (RunOn.outcome_bind_ok htick).trans hdeeper

/-- Without a step left a tree has no value. -/
theorem outcome_evaluate_exhausted (hfuel : m.budget.fuel ≤ m.spent) :
    (interpreter.evaluate expression).outcome m =
      (.error (.fuelExhausted m.budget.fuel), { m with spent := m.spent + 1 }) := by
  have htick := Run.outcome_tick m
  have hleft : (Host.machine m).budget.fuel < (Host.machine m).spent + 1 := Nat.lt_succ_of_le hfuel
  rw [if_pos hleft] at htick
  rw [← interpreter_above]
  exact RunOn.outcome_bind_error htick

end

/-- On a new machine with a step to spend a tree is what it is on the first level. -/
theorem runFresh_evaluate (expression : Expression) {budget : Budget} (hfuel : budget.fuel ≠ 0) :
    (runFresh budget (interpreter.evaluate expression)).1 =
      ((interpreter.expressionValue expression).outcome { budget, spent := 1, depth := 1 }).1 := by
  have hclock : (0 + 1) % clockInterval ≠ 0 := by decide
  have hdepth : 0 < maxDepth := by decide
  have hrun : (interpreter.evaluate expression).outcome { budget } = _ :=
    outcome_evaluate (Nat.pos_of_ne_zero hfuel) hclock hdepth
  unfold runFresh
  rw [hrun]

theorem runFresh_evaluate_exhausted (expression : Expression) {budget : Budget} (hfuel : budget.fuel = 0) :
    (runFresh budget (interpreter.evaluate expression)).1 = .error (.fuelExhausted 0) := by
  have hrun : (interpreter.evaluate expression).outcome { budget } = _ :=
    outcome_evaluate_exhausted (Nat.le_of_eq hfuel)
  unfold runFresh
  rw [hrun, ← hfuel]

/-! ### Expressions in parentheses -/

section

variable {budget : Budget} {source : String} {tree : Expression}

theorem attempt_expression (h : parseExpression (parenthesised source) = .ok tree) :
    Strategy.expression.attempt budget source = (runFresh budget (interpreter.evaluate tree)).1 := by
  unfold Strategy.attempt
  rw [h]
  rfl

/-- The value of the expression is that of the snippet. -/
theorem evaluate_of_value (h : parseExpression (parenthesised source) = .ok tree) {value : Value}
    (hvalue : (runFresh budget (interpreter.evaluate tree)).1 = .ok value) (hdefined : value.isUndefined = false) :
    evaluate budget source = .ok value := by
  unfold evaluate Strategy.all evaluateBy
  rw [attempt_expression h, hvalue]
  dsimp only
  rw [hdefined]
  rfl

/-- A budget that is used up by the expression leaves nothing for other readings. -/
theorem evaluate_of_isBudget (h : parseExpression (parenthesised source) = .ok tree) {fault : Fault}
    (hfault : (runFresh budget (interpreter.evaluate tree)).1 = .error fault) (hbudget : fault.isBudget = true) :
    evaluate budget source = .error fault := by
  unfold evaluate Strategy.all evaluateBy
  rw [attempt_expression h, hfault]
  cases fault with
  | malformed => cases hbudget
  | _ =>
    dsimp only
    rw [hbudget]
    rfl

end

/-- A source whose tokens make an expression between parentheses. -/
theorem parseExpression_parenthesised {source : String} {tokens : List Token} {tree : Expression}
    (htokens : tokensOf (parenthesised source) = some tokens)
    (hparse : ∀ placed : List PlacedToken, placed.map (·.token) = tokens → parseTokens placed = .ok tree) :
    parseExpression (parenthesised source) = .ok tree := by
  obtain ⟨placed, hplaced, hbare⟩ := exists_tokenize htokens
  rw [parseExpression_eq, hplaced]
  exact hparse placed hbare

end SequenceNotation.Script
