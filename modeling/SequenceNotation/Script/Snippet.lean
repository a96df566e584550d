import SequenceNotation.Script.Evaluate
import SequenceNotation.Script.Parse

/-!
# Snippets

What people type on one line is an expression, statements that set `result`, an `if` whose branches are
expressions, or the body of a function.  These readings are tried in order until one has a value.  A
function literal can be compiled and called again and again.
-/

namespace SequenceNotation.Script

/-- The outcome of a run on a new machine. -/
def runFresh {α : Type} (budget : Budget) (run : Run α) : Except Fault α × Machine :=
  run.outcome { budget }

/-- The value of a global variable after a run. -/
def globalAfter {α : Type} (name : String) : Except Fault α × Machine → Except Fault Value
  | (.ok _, machine) => .ok (machine.global name)
  | (.error fault, _) => .error fault

/-- A source text read, or its fault as the fault of a run. -/
def readable {α : Type} : Except SyntaxFault α → Except Fault α
  | .ok a => .ok a
  | .error fault => .error (.malformed fault)

/-- The source text in parentheses. -/
def parenthesised (source : String) : String :=
  "(" ++ source ++ ")"

/-- The value that a branch stands for, if it is a single expression.  An `if` stands for the
conditional expression of its branches, where a missing one is undefined. -/
def branchExpression? : Statement → Option Expression
  | .expression expression => some expression
  | .block [statement] => branchExpression? statement
  | .conditional test consequent none =>
    (branchExpression? consequent).map (.conditional test · .undefined)
  | .conditional test consequent (some alternative) => do
    let consequent ← branchExpression? consequent
    let alternative ← branchExpression? alternative
    return .conditional test consequent alternative
  | _ => none

def Statement.isEmpty : Statement → Bool
  | .empty => true
  | _ => false

/-- The conditional expression for a program that is a single `if`. -/
def ternaryOfProgram? (program : List Statement) : Option Expression :=
  match program.filter fun statement => !statement.isEmpty with
  | [.conditional test consequent alternative] =>
    branchExpression? (.conditional test consequent alternative)
  | _ => none

/-- The readings of a snippet. -/
inductive Strategy where
  | expression | resultVariable | ternary | functionBody
  deriving DecidableEq, Repr

namespace Strategy

/-- All readings in the order in which they are tried. -/
def all : List Strategy :=
  [expression, resultVariable, ternary, functionBody]

/-- The value of a snippet in one reading. -/
def attempt (strategy : Strategy) (budget : Budget) (source : String) : Except Fault Value :=
  match strategy with
  | expression => do
    let tree ← readable (parseExpression (parenthesised source))
    (runFresh budget (interpreter.evaluate tree)).1
  | resultVariable => do
    let program ← readable (parseProgram source)
    globalAfter "result" (runFresh budget (interpreter.executeAll program))
  | ternary => do
    match ternaryOfProgram? (← readable (parseProgram source)) with
    | some conditional => (runFresh budget (interpreter.evaluate conditional)).1
    | none => .ok .undefined
  | functionBody => do
    let program ← readable (parseProgram source)
    (runFresh budget (interpreter.bodyValue program)).1

end Strategy

/-- The first defined value among the readings left.  A fault of the source moves on, a used-up budget
ends the search, and the first other fault is the outcome if no reading has a value. -/
def evaluateBy (budget : Budget) (source : String) (fault : Option Fault) :
    List Strategy → Except Fault Value
  | [] =>
    match fault with
    | some fault => .error fault
    | none => .ok .undefined
  | strategy :: rest =>
    match strategy.attempt budget source with
    | .ok value =>
      if value.isUndefined then evaluateBy budget source fault rest else .ok value
    | .error (.malformed _) => evaluateBy budget source fault rest
    | .error other =>
      if other.isBudget then .error other
      else evaluateBy budget source (fault.or (some other)) rest

/-- The value of a snippet, undefined if no reading gives one. -/
def evaluate (budget : Budget) (source : String) : Except Fault Value :=
  evaluateBy budget source none Strategy.all

/-- A function that can be called with a new budget each time.  `created` is how many functions there
were when it was compiled. -/
structure Callable where
  identity : Nat
  parameters : List String
  body : FunctionBody
  captured : Frame
  created : Nat

namespace Callable

/-- The callable for a function value. -/
def ofValue (machine : Machine) : Value → Except Fault Callable
  | .function identity parameters body captured =>
    .ok { identity, parameters, body, captured, created := machine.created }
  | other => .error (.runtime (.notAFunction other.typeName))

/-- The name that a program declares as a function, if that is all it does. -/
def declaredName? : List Statement → Option String
  | [.declare [(name, some (.function ..))]] => some name
  | _ => none

/-- Compiles the source of a function: an expression or a single declaration. -/
def compile (budget : Budget) (source : String) : Except Fault Callable :=
  match parseExpression (parenthesised source) with
  | .ok expression =>
    match runFresh budget (interpreter.evaluate expression) with
    | (.ok value, machine) => ofValue machine value
    | (.error fault, _) => .error fault
  | .error _ => do
    let program ← readable (parseProgram source)
    match declaredName? program with
    | none => .error (.malformed .notAFunction)
    | some name =>
      match runFresh budget (interpreter.executeAll program) with
      | (.ok _, machine) => ofValue machine (machine.global name)
      | (.error fault, _) => .error fault

def arity (callable : Callable) : Nat :=
  callable.parameters.length

/-- Whether the body is an expression. -/
def hasExpressionBody (callable : Callable) : Bool :=
  match callable.body with
  | .expression _ => true
  | .block _ => false

/-- Calls the function on a new machine. -/
def call (callable : Callable) (budget : Budget) (arguments : List Value) : Except Fault Value :=
  let function : Value :=
    .function callable.identity callable.parameters callable.body callable.captured
  ((interpreter.call function arguments).outcome { budget, created := callable.created }).1

end Callable

end SequenceNotation.Script
