import SequenceNotation.Proofs.Script.Meaning
import SequenceNotation.Script.Snippet

/-!
# The conditional expression of an `if`

A program that is a single `if` stands for a conditional expression.  Its value is what the program would return as the
body of a function, if each branch returned its expression instead of only evaluating it, and undefined where no branch
is taken.
-/

namespace SequenceNotation.Script

mutual

/-- The statement in which expressions are returned. -/
def Statement.returning : Statement → Statement
  | .expression value => .result (some value)
  | .conditional test consequent alternative =>
    .conditional test consequent.returning (Statement.optionReturning alternative)
  | .block statements => .block (Statement.listReturning statements)
  | .declare bindings => .declare bindings
  | .loop test body => .loop test body
  | .result value => .result value
  | .empty => .empty

def Statement.optionReturning : Option Statement → Option Statement
  | none => none
  | some statement => some statement.returning

def Statement.listReturning : List Statement → List Statement
  | [] => []
  | statement :: rest => statement.returning :: Statement.listReturning rest

end

/-- The value that a body returns when it ends so. -/
def Flow.value : Flow → Value
  | .next => .undefined
  | .returned value => value

/-- A value, and the end of a body that returns it. -/
def Returns (value : Value) (flow : Flow) : Prop :=
  flow.value = value

theorem bodyValue_eq (statements : List Statement) :
    interpreter.bodyValue statements = (do return (← interpreter.executeAll statements).value) := by
  unfold Interpreter.bodyValue
  congr 1
  funext flow
  cases flow <;> rfl

/-- The run of a branch that may be missing. -/
def optionRun : Option Statement → Run Flow
  | none => return .next
  | some statement => interpreter.execute statement

theorem interchangeable_conditional {test consequent alternative : Expression} {own : Statement}
    {other : Option Statement} {right right' left left' : Extra}
    (hown : Interchangeable right left Returns (interpreter.evaluate consequent) (interpreter.execute own))
    (hother : Interchangeable right' left' Returns (interpreter.evaluate alternative) (optionRun other)) :
    Interchangeable (right.andThen right') (left.andThen left') Returns
      (interpreter.evaluate (.conditional test consequent alternative))
      (interpreter.execute (.conditional test own other)) := by
  have hbranches (value : Value) : Interchangeable (right.andThen right') (left.andThen left') Returns
      (if value.isTruthy then interpreter.evaluate consequent else interpreter.evaluate alternative)
      (if value.isTruthy then interpreter.execute own else optionRun other) :=
    .ite (hown.mono (Extra.le_andThen _ _) (Extra.le_andThen _ _))
      (hother.mono (Extra.le_andThen' _ _) (Extra.le_andThen' _ _))
  rw [evaluate_eq, execute_eq]
  refine .level ?_
  rw [← Extra.none_andThen (right.andThen right'), ← Extra.none_andThen (left.andThen left')]
  refine (Interchangeable.evaluate test).bind_eq fun value => ?_
  cases other with
  | none => exact hbranches value
  | some statement => exact hbranches value

/-- An expression for a branch means what the branch does that returns it. -/
theorem interchangeable_branch {statement : Statement} {expression : Expression}
    (h : branchExpression? statement = some expression) :
    ∃ right left, Interchangeable right left Returns (interpreter.evaluate expression)
      (interpreter.execute statement.returning) := by
  fun_induction branchExpression? statement generalizing expression with
  | case1 own =>
    -- The statement that returns an expression evaluates it one level below.
    cases h
    have hreturned (value : Value) : Interchangeable .none .none Returns (pure value) (pure (.returned value)) :=
      .pure rfl
    have hresult : Interchangeable .none .none Returns (interpreter.evaluate own >>= pure)
        (interpreter.statementFlow (.result (some own))) :=
      (Interchangeable.evaluate own).bind_eq hreturned
    rw [bind_pure] at hresult
    rw [Statement.returning, execute_eq]
    exact ⟨_, _, hresult.levelRight⟩
  | case2 statement ih =>
    -- A block of one statement only adds a level.
    obtain ⟨right, left, hbranch⟩ := ih h
    rw [← executeAll_singleton] at hbranch
    rw [Statement.returning, Statement.listReturning, Statement.listReturning, execute_eq]
    exact ⟨right.level, left, hbranch.levelRight⟩
  | case3 test consequent ih =>
    -- Without an alternative the conditional is undefined there, as what returns nothing is.
    obtain ⟨own, hown, rfl⟩ := Option.map_eq_some_iff.1 h
    obtain ⟨right, left, hbranch⟩ := ih hown
    have hundefined : Interchangeable .none .none Returns (interpreter.expressionValue .undefined) (optionRun none) :=
      .pure rfl
    have hmissing := hundefined.levelLeft
    rw [← evaluate_eq] at hmissing
    exact ⟨_, _, interchangeable_conditional hbranch hmissing⟩
  | case4 test consequent alternative ih ih' =>
    obtain ⟨own, hown, h⟩ := Option.bind_eq_some_iff.1 h
    obtain ⟨other, hother, h⟩ := Option.bind_eq_some_iff.1 h
    cases h
    obtain ⟨right, left, hbranch⟩ := ih hown
    obtain ⟨right', left', hbranch'⟩ := ih' hother
    exact ⟨_, _, interchangeable_conditional hbranch hbranch'⟩
  | case5 => cases h

/-- An empty statement in front makes no difference. -/
theorem interchangeable_skip {x : Run Value} {statements : List Statement} {right left : Extra}
    (h : Interchangeable right left Returns x (interpreter.executeAll statements)) :
    Interchangeable (Extra.none.level.andThen right) left Returns x
      (interpreter.executeAll (.empty :: statements)) := by
  have hnext : Interchangeable .none .none (fun _ flow => flow = .next) (pure ()) (interpreter.statementFlow .empty) :=
    .pure rfl
  have hempty := hnext.levelRight
  rw [← execute_eq] at hempty
  have hboth : Interchangeable (Extra.none.level.andThen right) (Extra.none.andThen left) Returns (pure () >>= fun _ => x)
      (interpreter.execute .empty >>= following statements) :=
    hempty.bind fun _ flow hflow => by
      rw [hflow]
      exact h
  rwa [pure_bind, Extra.none_andThen, ← executeAll_cons] at hboth

theorem eq_empty_of_isEmpty {statement : Statement} (h : statement.isEmpty = true) : statement = .empty := by
  cases statement with
  | empty => rfl
  | _ => cases h

/-- Statements that are all empty return nothing. -/
theorem interchangeable_empties {statements : List Statement}
    (h : statements.filter (fun statement => !statement.isEmpty) = []) :
    ∃ right left, Interchangeable right left Returns (pure .undefined)
      (interpreter.executeAll (Statement.listReturning statements)) := by
  induction statements with
  | nil => exact ⟨_, _, .pure rfl⟩
  | cons statement rest ih =>
    cases hempty : statement.isEmpty with
    | true =>
      obtain rfl := eq_empty_of_isEmpty hempty
      obtain ⟨right, left, hrest⟩ := ih (by rwa [List.filter_cons_of_neg (by simp [hempty])] at h)
      exact ⟨_, _, interchangeable_skip hrest⟩
    | false =>
      rw [List.filter_cons_of_pos (by simp [hempty])] at h
      cases h

/-- A single statement that stands for an expression, among empty ones. -/
theorem interchangeable_single {program : List Statement} {statement : Statement} {expression : Expression}
    (h : program.filter (fun statement => !statement.isEmpty) = [statement])
    (hexpression : branchExpression? statement = some expression) :
    ∃ right left, Interchangeable right left Returns (interpreter.evaluate expression)
      (interpreter.executeAll (Statement.listReturning program)) := by
  induction program with
  | nil => cases h
  | cons first rest ih =>
    cases hempty : first.isEmpty with
    | true =>
      obtain rfl := eq_empty_of_isEmpty hempty
      obtain ⟨right, left, hrest⟩ := ih (by rwa [List.filter_cons_of_neg (by simp [hempty])] at h)
      exact ⟨_, _, interchangeable_skip hrest⟩
    | false =>
      rw [List.filter_cons_of_pos (by simp [hempty])] at h
      obtain ⟨rfl, hrest⟩ := List.cons.inj h
      obtain ⟨right, left, hbranch⟩ := interchangeable_branch hexpression
      obtain ⟨right', left', hempties⟩ := interchangeable_empties hrest
      have hboth : Interchangeable (right.andThen right') (left.andThen left') Returns
          (interpreter.evaluate expression >>= pure)
          (interpreter.execute first.returning >>= following (Statement.listReturning rest)) := by
        refine hbranch.bind fun value flow hvalue => ?_
        -- what has returned goes no further; what has not has given undefined, as the empty statements do
        cases flow with
        | next =>
          obtain rfl : Value.undefined = value := hvalue
          exact hempties
        | returned own => exact (Interchangeable.pure hvalue).mono (Extra.none_le _) (Extra.none_le _)
      rw [bind_pure, ← executeAll_cons] at hboth
      exact ⟨_, _, hboth⟩

/-- The `if` that gives `y`, or `z` if `w` holds, or nothing; the inner one stands in a block, and an empty statement
stands in front. -/
def nestedChoice : List Statement :=
  [.empty, .conditional (.name "x") (.expression (.name "y"))
    (some (.block [.conditional (.name "w") (.expression (.name "z")) none]))]

end SequenceNotation.Script
