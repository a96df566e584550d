import SequenceNotation.Script.Builtin
import SequenceNotation.Script.Machine

/-!
# Evaluation of syntax trees

Every expression and statement costs one step and is one level deeper than what holds it.  The meaning
of a tree is given in terms of an interpreter for its parts; the interpreter for trees at any level is
then built level by level, as deep as the machine lets a run go.
-/

namespace SequenceNotation.Script

open SequenceNotation.Number

/-- How a statement ends: by going on, or by returning a value from the function. -/
inductive Flow where
  | next
  | returned (value : Value)

/-- A meaning for expressions and statements. -/
structure Interpreter (σ : Type) where
  evaluate : Expression → RunOn σ Value
  execute : Statement → RunOn σ Flow

namespace Interpreter

variable {σ : Type} [Host σ] (parts : Interpreter σ)

/-- Runs statements in order until one returns. -/
def executeAll : List Statement → RunOn σ Flow
  | [] => return .next
  | statement :: rest => do
    match ← parts.execute statement with
    | .next => executeAll rest
    | .returned value => return .returned value

/-- The value that statements return as the body of a function. -/
def bodyValue (statements : List Statement) : RunOn σ Value := do
  match ← parts.executeAll statements with
  | .next => return .undefined
  | .returned value => return value

/-- The values of arguments in order. -/
def argumentValues : List Expression → RunOn σ (List Value)
  | [] => return []
  | argument :: rest => do
    let value ← parts.evaluate argument
    return value :: (← argumentValues rest)

/-- The variables of a call: the captured ones and the parameters, undefined where no argument is
left. -/
def callFrame (captured : Frame) : List String → List Value → Frame
  | [], _ => captured
  | parameter :: parameters, [] => callFrame (captured.set parameter .undefined) parameters []
  | parameter :: parameters, value :: values =>
    callFrame (captured.set parameter value) parameters values

/-- Calls a function value. -/
def call (function : Value) (arguments : List Value) : RunOn σ Value := do
  match function with
  | .function _ parameters body captured =>
    Run.inFrame (callFrame captured parameters arguments) (match body with
      | .expression result => parts.evaluate result
      | .block statements => parts.bodyValue statements)
  | other => Run.fail (.notCallable other.typeName)

/-- Whether an expression is the name of the mathematics library, not hidden by a variable. -/
def isMath : Expression → RunOn σ Bool
  | .name name => do
    if name = "Math" then return (← Run.lookup? name).isNone else return false
  | _ => return false

/-- The value of a built-in function, or the fault that names a missing one. -/
def builtin (name : String) (missing : RuntimeFault) (arguments : List Value) : RunOn σ Value :=
  match applyBuiltin? name arguments with
  | some value => return value
  | none => Run.fail missing

/-- A call of a method of the mathematics library or of a value. -/
def callMember (object : Expression) (name : String) (arguments : List Expression) :
    RunOn σ Value := do
  if ← isMath object then
    builtin name (.noMathFunction name) (← parts.argumentValues arguments)
  else
    let target ← parts.evaluate object
    let values ← parts.argumentValues arguments
    Run.lift (applyMethod target name values)

/-- A call of the value of an expression. -/
def callValue (callee : Expression) (arguments : List Expression) : RunOn σ Value := do
  let function ← parts.evaluate callee
  let values ← parts.argumentValues arguments
  parts.call function values

/-- A call: of a method, of a built-in function that no variable hides, or of a value. -/
def callExpression (callee : Expression) (arguments : List Expression) : RunOn σ Value := do
  match callee with
  | .member object name => parts.callMember object name arguments
  | .name name =>
    if (← Run.lookup? name).isNone then
      builtin name (.notDefined name) (← parts.argumentValues arguments)
    else parts.callValue callee arguments
  | _ => parts.callValue callee arguments

/-- A property of the mathematics library or of a value. -/
def member (object : Expression) (property : String) : RunOn σ Value := do
  if ← isMath object then
    if property = "PI" then return .number Double.pi
    else if property = "E" then return .number Double.euler
    else Run.fail (.noMathValue property)
  else
    Run.lift (memberOf (← parts.evaluate object) property)

/-- The kind of an operand; a name without value is undefined. -/
def typeOf (operand : Expression) : RunOn σ Value := do
  match operand with
  | .name name => return .text ((← Run.lookup? name).getD .undefined).typeName
  | _ => return .text (← parts.evaluate operand).typeName

/-- Whether the left side of a logical operator is its value already. -/
def decides (operator : LogicalOperator) (left : Value) : Bool :=
  match operator with
  | .and => !left.isTruthy
  | .or => left.isTruthy
  | .nullish => !left.isNullish

/-- The value that an assignment stores. -/
def assignedValue (name : String) (operator : Option BinaryOperator) (value : Value) :
    RunOn σ Value := do
  match operator with
  | none => return value
  | some operator => Run.lift (applyBinary operator (← Run.read name) value)

/-- The meaning of an expression, given one for its parts. -/
def expressionValue : Expression → RunOn σ Value
  | .number value => return .number value
  | .text text => return .text text
  | .boolean value => return .boolean value
  | .null => return .null
  | .undefined => return .undefined
  | .name name => Run.read name
  | .unary .typeof operand => parts.typeOf operand
  | .unary operator operand => return applyUnary operator (← parts.evaluate operand)
  | .binary operator left right => do
    let left ← parts.evaluate left
    let right ← parts.evaluate right
    Run.lift (applyBinary operator left right)
  | .logical operator left right => do
    let left ← parts.evaluate left
    if decides operator left then return left else parts.evaluate right
  | .conditional test consequent alternative => do
    if (← parts.evaluate test).isTruthy then parts.evaluate consequent
    else parts.evaluate alternative
  | .assign name operator value => do
    let value ← assignedValue name operator (← parts.evaluate value)
    Run.assign name value
    return value
  | .update name upwards inFront => do
    let old := (← Run.read name).toNumber
    let new := if upwards then old + 1 else old + -1
    Run.assign name (.number new)
    return .number (if inFront then new else old)
  | .member object property => parts.member object property
  | .call callee arguments => parts.callExpression callee arguments
  | .function parameters body => Run.close parameters body

/-- Declares variables with the values of their expressions. -/
def declareAll : List (String × Option Expression) → RunOn σ Unit
  | [] => return ()
  | (name, value) :: rest => do
    let value ← match value with
      | some expression => parts.evaluate expression
      | none => pure .undefined
    Run.declare name value
    declareAll rest

/-- Runs a body as long as the test holds.  Every round spends a step, so there are no more rounds than
steps left. -/
def loop (test : Expression) (body : Statement) : (rounds : Nat) → RunOn σ Flow
  | 0 => Run.exhausted
  | rounds + 1 => do
    if (← parts.evaluate test).isTruthy then
      match ← parts.execute body with
      | .next => loop test body rounds
      | .returned value => return .returned value
    else
      return .next

/-- The meaning of a statement, given one for its parts. -/
def statementFlow : Statement → RunOn σ Flow
  | .expression expression => do
    discard (parts.evaluate expression)
    return .next
  | .declare bindings => do
    parts.declareAll bindings
    return .next
  | .conditional test consequent alternative => do
    if (← parts.evaluate test).isTruthy then parts.execute consequent
    else
      match alternative with
      | some statement => parts.execute statement
      | none => return .next
  | .loop test body => do
    parts.loop test body ((← Run.stepsLeft) + 1)
  | .result none => return .returned .undefined
  | .result (some expression) => return .returned (← parts.evaluate expression)
  | .block statements => parts.executeAll statements
  | .empty => return .next

/-- The interpreter for trees on a level, given the one for the level below. -/
def above : Interpreter σ where
  evaluate expression := do
    Run.tick
    Run.deeper (parts.expressionValue expression)
  execute statement := do
    Run.tick
    Run.deeper (parts.statementFlow statement)

/-- The interpreter for so many levels. -/
def ofLevels : Nat → Interpreter σ
  | 0 =>
    { evaluate := fun _ => do
        Run.tick
        throw (.recursionLimit maxDepth)
      execute := fun _ => do
        Run.tick
        throw (.recursionLimit maxDepth) }
  | levels + 1 => (ofLevels levels).above

end Interpreter

/-- The interpreter for every tree on a host: no run gets below `maxDepth` levels. -/
def interpreterOn (σ : Type) [Host σ] : Interpreter σ :=
  Interpreter.ofLevels maxDepth

/-- The interpreter for every tree. -/
def interpreter : Interpreter Machine :=
  interpreterOn Machine

end SequenceNotation.Script
