import SequenceNotation.Script.Scan
import SequenceNotation.Script.Tree

/-!
# From tokens to syntax trees

From loosest to tightest: assignment, `?:`, the seven levels of left-associative operators from `??`
to `* / %`, the right-associative `**`, prefix operators, and calls, members and `++` behind a primary.
Semicolons between statements may be missing.

Every statement, assignment, right side of `**` and operand of a prefix operator is one level deeper
than what holds it, and so is each operator of a chain.  Nothing is read below `maxNesting` levels,
which is why the rules are given level by level.
-/

namespace SequenceNotation.Script

/-- Where the reader stands: the nesting so far and the tokens ahead. -/
structure ParseState where
  depth : Nat
  tokens : List PlacedToken

abbrev Parse (α : Type) := StateT ParseState (Except SyntaxFault) α

namespace Parse

/-- A fault at the next token. -/
def complain {α : Type} (complaint : Complaint) : Parse α := do
  throw (.misplaced complaint (← get).tokens.head?)

/-- The token `n` places ahead. -/
def peek? (n : Nat) : Parse (Option Token) := do
  return ((← get).tokens[n]?).map (·.token)

/-- Leaves the next token behind, which has to be there. -/
def advance : Parse Unit := do
  match (← get).tokens with
  | [] => complain .pastEnd
  | _ :: rest => modify fun s => { s with tokens := rest }

/-- Takes the next token if it is the one given. -/
def eat (token : Token) : Parse Bool := do
  if (← peek? 0) = some token then
    advance
    return true
  else
    return false

/-- Takes the given token or complains. -/
def expect (token : Token) : Parse Unit := do
  unless ← eat token do complain (.expected token)

/-- Goes one level deeper. -/
def descend : Parse Unit := do
  modify fun s => { s with depth := s.depth + 1 }
  if maxNesting < (← get).depth then complain .tooDeep

/-- Reads one level deeper and comes back to the level before. -/
def nested {α : Type} (parse : Parse α) : Parse α := do
  let depth := (← get).depth
  descend
  let result ← parse
  modify fun s => { s with depth := depth }
  return result

/-- More than enough rounds for a loop that takes a token in each. -/
def rounds : Parse Nat := do
  return (← get).tokens.length + 1

def identifier : Parse String := do
  match ← peek? 0 with
  | some (.identifier name) =>
    advance
    return name
  | _ => complain .expectedIdentifier

end Parse

open Parse

/-- The rules that the others refer back to. -/
structure Rules where
  statement : Parse Statement
  assignment : Parse Expression
  power : Parse Expression
  prefixed : Parse Expression

/-- An operator of a level and the node it makes. -/
abbrev Joiner := Mark × (Expression → Expression → Expression)

/-- The left-associative operators, loosest level first. -/
def operatorLevels : List (List Joiner) :=
  [[(.nullish, .logical .nullish)],
   [(.or, .logical .or)],
   [(.and, .logical .and)],
   [(.equal, .binary .equal), (.notEqual, .binary .notEqual),
    (.strictEqual, .binary .strictEqual), (.strictNotEqual, .binary .strictNotEqual)],
   [(.less, .binary .less), (.lessEqual, .binary .lessEqual),
    (.greater, .binary .greater), (.greaterEqual, .binary .greaterEqual)],
   [(.plus, .binary .add), (.minus, .binary .subtract)],
   [(.star, .binary .multiply), (.slash, .binary .divide), (.percent, .binary .remainder)]]

/-- The node of an operator of the level, if the token is one. -/
def joinerOf? (level : List Joiner) : Option Token → Option (Expression → Expression → Expression)
  | some (.mark mark) => level.lookup mark
  | _ => none

/-- What is left after the parenthesis that closes `open` open ones. -/
def afterParenthesis (opened : Nat) : List PlacedToken → Option (List PlacedToken)
  | [] => none
  | t :: rest =>
    match t.token with
    | .mark .openParen => afterParenthesis (opened + 1) rest
    | .mark .closeParen => if opened ≤ 1 then some rest else afterParenthesis (opened - 1) rest
    | _ => afterParenthesis opened rest

/-- Whether the tokens are a parenthesis, its closing one and an arrow. -/
def startsArrowFunction : List PlacedToken → Bool
  | t :: rest =>
    t.token = .mark .openParen &&
      ((afterParenthesis 1 rest).bind List.head?).map (·.token) = some (.mark .arrow)
  | [] => false

/-- Names separated by commas up to the closing parenthesis. -/
def parameters : (rounds : Nat) → Parse (List String)
  | 0 => complain .expectedIdentifier
  | rounds + 1 => do
    let name ← identifier
    if ← eat (.mark .closeParen) then
      return [name]
    else
      expect (.mark .comma)
      return name :: (← parameters rounds)

/-- The parameters behind an opening parenthesis. -/
def parameterList : Parse (List String) := do
  if ← eat (.mark .closeParen) then return []
  else parameters (← rounds)

namespace Rules

variable (rules : Rules)

/-- Statements up to and including the closing brace. -/
def blockRest : (rounds : Nat) → Parse (List Statement)
  | 0 => complain .unclosedBlock
  | rounds + 1 => do
    match ← peek? 0 with
    | some (.mark .closeBrace) =>
      advance
      return []
    | none => complain .unclosedBlock
    | some _ =>
      let first ← rules.statement
      return first :: (← blockRest rounds)

/-- The statements of a block behind its opening brace. -/
def block : Parse (List Statement) := do
  rules.blockRest (← rounds)

/-- The parameters and the body behind the `function` keyword and its name. -/
def functionRest : Parse Expression := do
  expect (.mark .openParen)
  let parameters ← parameterList
  expect (.mark .openBrace)
  return .function parameters (.block (← rules.block))

/-- Assignments separated by commas up to the closing parenthesis. -/
def argumentsRest : (rounds : Nat) → Parse (List Expression)
  | 0 => complain .expectedExpression
  | rounds + 1 => do
    let argument ← rules.assignment
    if ← eat (.mark .closeParen) then
      return [argument]
    else
      expect (.mark .comma)
      return argument :: (← argumentsRest rounds)

/-- The arguments behind an opening parenthesis. -/
def argumentList : Parse (List Expression) := do
  if ← eat (.mark .closeParen) then return []
  else rules.argumentsRest (← rounds)

/-- A literal, a name, an expression in parentheses or a function. -/
def primary : Parse Expression := do
  match ← peek? 0 with
  | some (.number value) => advance; return .number value
  | some (.string text) => advance; return .text text
  | some (.keyword .trueWord) => advance; return .boolean true
  | some (.keyword .falseWord) => advance; return .boolean false
  | some (.keyword .nullWord) => advance; return .null
  | some (.keyword .undefinedWord) => advance; return .undefined
  | some (.identifier name) => advance; return .name name
  | some (.mark .openParen) =>
    advance
    let inner ← rules.assignment
    expect (.mark .closeParen)
    return inner
  | some (.keyword .functionWord) =>
    advance
    -- the name of a function expression is not bound
    if let some (.identifier _) ← peek? 0 then advance
    rules.functionRest
  | _ => complain .expectedExpression

/-- Counting behind an expression, which has to be a name, one level deeper. -/
def countedBehind (expression : Expression) (upwards : Bool) : Parse Expression := do
  descend
  match expression with
  | .name name =>
    advance
    return .update name upwards false
  | _ => complain .updateTarget

/-- Calls, members and counting behind an expression, each one level deeper. -/
def suffixes : (rounds : Nat) → Expression → Parse Expression
  | 0, expression => return expression
  | rounds + 1, expression => do
    match ← peek? 0 with
    | some (.mark .openParen) =>
      descend
      advance
      let arguments ← rules.argumentList
      suffixes rounds (.call expression arguments)
    | some (.mark .dot) =>
      descend
      advance
      let name ← identifier
      suffixes rounds (.member expression name)
    | some (.mark .increment) => suffixes rounds (← countedBehind expression true)
    | some (.mark .decrement) => suffixes rounds (← countedBehind expression false)
    | _ => return expression

/-- Counting in front of a name. -/
def countedName (upwards : Bool) : Parse Expression := do
  advance
  return .update (← identifier) upwards true

/-- An operator in front of its operand. -/
def operatorFirst (operator : UnaryOperator) : Parse Expression := do
  advance
  return .unary operator (← rules.prefixed)

/-- Prefix operators, and what binds tighter. -/
def unary : Parse Expression := do
  match ← peek? 0 with
  | some (.mark .minus) => rules.operatorFirst .negate
  | some (.mark .plus) => rules.operatorFirst .plus
  | some (.mark .not) => rules.operatorFirst .not
  | some (.keyword .typeofWord) => rules.operatorFirst .typeof
  | some (.mark .increment) => countedName true
  | some (.mark .decrement) => countedName false
  | _ =>
    let expression ← rules.primary
    rules.suffixes (← rounds) expression

/-- The right-associative `**`. -/
def exponent : Parse Expression := do
  let base ← rules.unary
  if ← eat (.mark .power) then
    return .binary .power base (← rules.power)
  else
    return base

/-- Further operators of a level and their right sides, each one level deeper. -/
def chain (level : List Joiner) (operand : Parse Expression) :
    (rounds : Nat) → Expression → Parse Expression
  | 0, left => return left
  | rounds + 1, left => do
    match joinerOf? level (← peek? 0) with
    | none => return left
    | some join =>
      advance
      descend
      let right ← operand
      chain level operand rounds (join left right)

/-- Operands of a level separated by its operators. -/
def operators : List (List Joiner) → Parse Expression
  | [] => rules.exponent
  | level :: tighter => do
    let left ← operators tighter
    chain level (operators tighter) (← rounds) left

/-- `test ? a : b`, and what binds tighter. -/
def conditional : Parse Expression := do
  let test ← rules.operators operatorLevels
  if ← eat (.mark .question) then
    let consequent ← rules.assignment
    expect (.mark .colon)
    return .conditional test consequent (← rules.assignment)
  else
    return test

/-- The body behind an arrow. -/
def arrowBody : Parse FunctionBody := do
  if ← eat (.mark .openBrace) then
    return .block (← rules.block)
  else
    return .expression (← rules.assignment)

/-- `a => …` or `(a, b) => …`, if that stands ahead. -/
def arrowFunction? : Parse (Option Expression) := do
  match ← peek? 0, ← peek? 1 with
  | some (.identifier name), some (.mark .arrow) =>
    advance
    advance
    return some (.function [name] (← rules.arrowBody))
  | _, _ =>
    if startsArrowFunction (← get).tokens then
      advance
      let parameters ← parameterList
      expect (.mark .arrow)
      return some (.function parameters (← rules.arrowBody))
    else
      return none

/-- The operator of an assignment mark: none for plain assignment. -/
def assignmentOperator? : Option Token → Option (Option BinaryOperator)
  | some (.mark .assign) => some none
  | some (.mark .plusAssign) => some (some .add)
  | some (.mark .minusAssign) => some (some .subtract)
  | some (.mark .starAssign) => some (some .multiply)
  | some (.mark .slashAssign) => some (some .divide)
  | _ => none

/-- An arrow function, or a target and its value, or what binds tighter. -/
def expression : Parse Expression := do
  if let some function ← rules.arrowFunction? then
    return function
  else
    let target ← rules.conditional
    match assignmentOperator? (← peek? 0) with
    | none => return target
    | some operator =>
      match target with
      | .name name =>
        advance
        return .assign name operator (← rules.assignment)
      | _ => complain .assignmentTarget

/-- Names with their initial values, separated by commas. -/
def bindings : (rounds : Nat) → Parse (List (String × Option Expression))
  | 0 => complain .expectedIdentifier
  | rounds + 1 => do
    let name ← identifier
    let value ← if ← eat (.mark .assign) then some <$> rules.assignment else pure none
    if ← eat (.mark .comma) then
      return (name, value) :: (← bindings rounds)
    else
      return [(name, value)]

def declaration : Parse Statement := do
  advance
  return .declare (← rules.bindings (← rounds))

/-- The test of an `if` or `while`, in parentheses. -/
def testInParentheses : Parse Expression := do
  advance
  expect (.mark .openParen)
  let test ← rules.assignment
  expect (.mark .closeParen)
  return test

/-- A statement without the semicolon behind it. -/
def bareStatement : Parse Statement := do
  match ← peek? 0 with
  | some (.mark .openBrace) =>
    advance
    return .block (← rules.block)
  | some (.keyword .letWord) => rules.declaration
  | some (.keyword .varWord) => rules.declaration
  | some (.keyword .constWord) => rules.declaration
  | some (.keyword .ifWord) =>
    let test ← rules.testInParentheses
    let consequent ← rules.statement
    if ← eat (.keyword .elseWord) then
      return .conditional test consequent (some (← rules.statement))
    else
      return .conditional test consequent none
  | some (.keyword .whileWord) =>
    let test ← rules.testInParentheses
    return .loop test (← rules.statement)
  | some (.keyword .returnWord) =>
    advance
    match ← peek? 0 with
    | none => return .result none
    | some (.mark .semicolon) => return .result none
    | some (.mark .closeBrace) => return .result none
    | some _ => return .result (some (← rules.assignment))
  | some (.mark .semicolon) => return .empty
  | some (.keyword .functionWord) =>
    match ← peek? 1 with
    | some (.identifier name) =>
      advance
      advance
      return .declare [(name, some (← rules.functionRest))]
    | _ => return .expression (← rules.assignment)
  | _ => return .expression (← rules.assignment)

/-- A statement and the semicolon behind it, if there is one. -/
def terminated : Parse Statement := do
  let statement ← rules.bareStatement
  discard (eat (.mark .semicolon))
  return statement

end Rules

/-- The rules for so many more levels of nesting. -/
def rulesAt : (levels : Nat) → Rules
  | 0 =>
    { statement := complain .tooDeep
      assignment := complain .tooDeep
      power := complain .tooDeep
      prefixed := complain .tooDeep }
  | levels + 1 =>
    let rules := rulesAt levels
    { statement := nested rules.terminated
      assignment := nested rules.expression
      power := nested rules.exponent
      prefixed := nested rules.unary }

/-- The rules of the language: one level more than nesting allows, where `nested` complains. -/
def grammar : Rules :=
  rulesAt (maxNesting + 1)

/-- One expression that the tokens end with. -/
def wholeExpression : Parse Expression := do
  let expression ← grammar.assignment
  if (← get).tokens.isEmpty then return expression
  else complain .expectedEnd

/-- Statements up to the end of the tokens. -/
def statements : (rounds : Nat) → Parse (List Statement)
  | 0 => return []
  | rounds + 1 => do
    if (← get).tokens.isEmpty then return []
    else
      let first ← grammar.statement
      return first :: (← statements rounds)

/-- Runs a reader on the tokens of a source text. -/
def parseSource {α : Type} (parse : Parse α) (source : String) : Except SyntaxFault α := do
  let tokens ← tokenize source
  let (result, _) ← parse.run ⟨0, tokens⟩
  return result

/-- Reads a source text that is exactly one expression. -/
def parseExpression (source : String) : Except SyntaxFault Expression :=
  parseSource wholeExpression source

/-- Reads a source text as a sequence of statements. -/
def parseProgram (source : String) : Except SyntaxFault (List Statement) :=
  parseSource (do statements (← rounds)) source

end SequenceNotation.Script
