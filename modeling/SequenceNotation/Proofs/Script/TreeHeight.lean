import SequenceNotation.Script.Tree

/-!
# Heights of trees

The height of a tree is the number of its nodes on a longest path from the root to a leaf.  Expressions and
statements are nodes.  The body of a function is none, nor is a list of arguments, statements or initial
values.
-/

namespace SequenceNotation.Script

mutual

/-- The height of an expression. -/
def Expression.height : Expression → Nat
  | .unary _ operand => operand.height + 1
  | .binary _ left right => max left.height right.height + 1
  | .logical _ left right => max left.height right.height + 1
  | .conditional test consequent alternative =>
    max test.height (max consequent.height alternative.height) + 1
  | .assign _ _ value => value.height + 1
  | .member object _ => object.height + 1
  | .call callee arguments => max callee.height (Expression.listHeight arguments) + 1
  | .function _ body => body.height + 1
  | _ => 1

/-- The height of the highest of the expressions. -/
def Expression.listHeight : List Expression → Nat
  | [] => 0
  | expression :: rest => max expression.height (Expression.listHeight rest)

/-- The height of an expression that may be missing. -/
def Expression.optionHeight : Option Expression → Nat
  | none => 0
  | some expression => expression.height

/-- The height of the trees in the body of a function. -/
def FunctionBody.height : FunctionBody → Nat
  | .expression result => result.height
  | .block statements => Statement.listHeight statements

/-- The height of a statement. -/
def Statement.height : Statement → Nat
  | .expression expression => expression.height + 1
  | .declare bindings => Statement.bindingHeight bindings + 1
  | .conditional test consequent alternative =>
    max test.height (max consequent.height (Statement.optionHeight alternative)) + 1
  | .loop test body => max test.height body.height + 1
  | .result value => Expression.optionHeight value + 1
  | .block statements => Statement.listHeight statements + 1
  | .empty => 1

/-- The height of the highest of the statements. -/
def Statement.listHeight : List Statement → Nat
  | [] => 0
  | statement :: rest => max statement.height (Statement.listHeight rest)

/-- The height of a statement that may be missing. -/
def Statement.optionHeight : Option Statement → Nat
  | none => 0
  | some statement => statement.height

/-- The height of the highest of the initial values of declared names. -/
def Statement.bindingHeight : List (String × Option Expression) → Nat
  | [] => 0
  | (_, value) :: rest => max (Expression.optionHeight value) (Statement.bindingHeight rest)

end

/-- The root of a tree is on every path. -/
theorem Expression.height_pos (expression : Expression) : 0 < expression.height := by
  cases expression <;> exact Nat.succ_pos _

end SequenceNotation.Script
