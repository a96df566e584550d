import SequenceNotation.Script.Tree

/-!
# String literals and names of trees

The texts that a tree spells out, and the names of variables that it reads or assigns, those in function
bodies included.  Whatever holds of them can be asked of a whole program without a look at its shape.
-/

namespace SequenceNotation.Script

mutual

/-- The texts of the string literals in an expression. -/
def Expression.literals : Expression → List String
  | .text text => [text]
  | .unary _ operand => operand.literals
  | .binary _ left right => left.literals ++ right.literals
  | .logical _ left right => left.literals ++ right.literals
  | .conditional test consequent alternative =>
    test.literals ++ (consequent.literals ++ alternative.literals)
  | .assign _ _ value => value.literals
  | .member object _ => object.literals
  | .call callee arguments => callee.literals ++ Expression.listLiterals arguments
  | .function _ body => body.literals
  | _ => []

/-- The texts of the string literals in expressions. -/
def Expression.listLiterals : List Expression → List String
  | [] => []
  | expression :: rest => expression.literals ++ Expression.listLiterals rest

/-- The texts of the string literals in an expression that may be missing. -/
def Expression.optionLiterals : Option Expression → List String
  | none => []
  | some expression => expression.literals

/-- The texts of the string literals in the body of a function. -/
def FunctionBody.literals : FunctionBody → List String
  | .expression result => result.literals
  | .block statements => Statement.listLiterals statements

/-- The texts of the string literals in a statement. -/
def Statement.literals : Statement → List String
  | .expression expression => expression.literals
  | .declare bindings => Statement.bindingLiterals bindings
  | .conditional test consequent alternative =>
    test.literals ++ (consequent.literals ++ Statement.optionLiterals alternative)
  | .loop test body => test.literals ++ body.literals
  | .result value => Expression.optionLiterals value
  | .block statements => Statement.listLiterals statements
  | .empty => []

/-- The texts of the string literals in statements. -/
def Statement.listLiterals : List Statement → List String
  | [] => []
  | statement :: rest => statement.literals ++ Statement.listLiterals rest

/-- The texts of the string literals in a statement that may be missing. -/
def Statement.optionLiterals : Option Statement → List String
  | none => []
  | some statement => statement.literals

/-- The texts of the string literals in the initial values of declared names. -/
def Statement.bindingLiterals : List (String × Option Expression) → List String
  | [] => []
  | (_, value) :: rest => Expression.optionLiterals value ++ Statement.bindingLiterals rest

end

mutual

/-- The names of variables that an expression reads, assigns or counts. -/
def Expression.names : Expression → List String
  | .name name => [name]
  | .unary _ operand => operand.names
  | .binary _ left right => left.names ++ right.names
  | .logical _ left right => left.names ++ right.names
  | .conditional test consequent alternative => test.names ++ (consequent.names ++ alternative.names)
  | .assign name _ value => name :: value.names
  | .update name _ _ => [name]
  | .member object _ => object.names
  | .call callee arguments => callee.names ++ Expression.listNames arguments
  | .function _ body => body.names
  | _ => []

/-- The names of variables in expressions. -/
def Expression.listNames : List Expression → List String
  | [] => []
  | expression :: rest => expression.names ++ Expression.listNames rest

/-- The names of variables in an expression that may be missing. -/
def Expression.optionNames : Option Expression → List String
  | none => []
  | some expression => expression.names

/-- The names of variables in the body of a function. -/
def FunctionBody.names : FunctionBody → List String
  | .expression result => result.names
  | .block statements => Statement.listNames statements

/-- The names of variables in a statement.  A declaration alone is no use of a name. -/
def Statement.names : Statement → List String
  | .expression expression => expression.names
  | .declare bindings => Statement.bindingNames bindings
  | .conditional test consequent alternative =>
    test.names ++ (consequent.names ++ Statement.optionNames alternative)
  | .loop test body => test.names ++ body.names
  | .result value => Expression.optionNames value
  | .block statements => Statement.listNames statements
  | .empty => []

/-- The names of variables in statements. -/
def Statement.listNames : List Statement → List String
  | [] => []
  | statement :: rest => statement.names ++ Statement.listNames rest

/-- The names of variables in a statement that may be missing. -/
def Statement.optionNames : Option Statement → List String
  | none => []
  | some statement => statement.names

/-- The names of variables in the initial values of declared names. -/
def Statement.bindingNames : List (String × Option Expression) → List String
  | [] => []
  | (_, value) :: rest => Expression.optionNames value ++ Statement.bindingNames rest

end

end SequenceNotation.Script
