import SequenceNotation.Number.Double

/-!
# Syntax trees

Expressions, statements and function bodies.  Parentheses leave no node, and names are not resolved.
-/

namespace SequenceNotation.Script

open SequenceNotation.Number

inductive UnaryOperator where
  | negate | plus | not | typeof
  deriving DecidableEq, Repr

inductive BinaryOperator where
  | add | subtract | multiply | divide | remainder | power
  | equal | notEqual | strictEqual | strictNotEqual
  | less | lessEqual | greater | greaterEqual
  deriving DecidableEq, Repr

/-- Operators that evaluate their right side only if the left one does not decide. -/
inductive LogicalOperator where
  | and | or | nullish
  deriving DecidableEq, Repr

mutual

inductive Expression where
  | number (value : Double)
  | text (text : String)
  | boolean (value : Bool)
  | null
  | undefined
  | name (name : String)
  | unary (operator : UnaryOperator) (operand : Expression)
  | binary (operator : BinaryOperator) (left right : Expression)
  | logical (operator : LogicalOperator) (left right : Expression)
  | conditional (test consequent alternative : Expression)
  /-- Assignment to a variable, through an operator if it is compound. -/
  | assign (name : String) (operator : Option BinaryOperator) (value : Expression)
  /-- Counting a variable up or down; the result is the new value if the operator stands in front. -/
  | update (name : String) (upwards : Bool) (inFront : Bool)
  | member (object : Expression) (property : String)
  | call (callee : Expression) (arguments : List Expression)
  | function (parameters : List String) (body : FunctionBody)

inductive FunctionBody where
  /-- The body of an arrow function that is its result. -/
  | expression (result : Expression)
  | block (statements : List Statement)

inductive Statement where
  | expression (expression : Expression)
  /-- Declares every listed name in the current frame. -/
  | declare (bindings : List (String × Option Expression))
  | conditional (test : Expression) (consequent : Statement) (alternative : Option Statement)
  | loop (test : Expression) (body : Statement)
  | result (value : Option Expression)
  | block (statements : List Statement)
  | empty

end

end SequenceNotation.Script
