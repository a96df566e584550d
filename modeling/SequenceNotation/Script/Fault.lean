import SequenceNotation.Script.Token

/-!
# Faults of scripts

What can go wrong with a source text or a run, and the wording of each case.
-/

namespace SequenceNotation.Script

/-- The deepest nesting that is read. -/
def maxNesting : Nat := 100

/-- The longest text, in bytes, that a script may build. -/
def maxTextBytes : Nat := 1048576

/-- What is wrong at a token. -/
inductive Complaint where
  | tooDeep
  | expected (token : Token)
  | expectedEnd
  | expectedIdentifier
  | expectedExpression
  | unclosedBlock
  | assignmentTarget
  | updateTarget
  /-- A reader took a token where there is none, which no reader does. -/
  | pastEnd
  deriving DecidableEq

/-- Why a source text is not a program or an expression. -/
inductive SyntaxFault where
  /-- Text that begins no token. -/
  | unexpectedText (text : String) (offset : Nat)
  /-- A token that does not fit, or the end of the source. -/
  | misplaced (complaint : Complaint) (found : Option PlacedToken)
  /-- A program that is not a single function declaration. -/
  | notAFunction
  deriving DecidableEq

/-- Why a run fails for its values. -/
inductive RuntimeFault where
  | notDefined (name : String)
  | noMathValue (name : String)
  | noMathFunction (name : String)
  | memberOfNothing (property value : String)
  | notCallable (typeName : String)
  | noMethod (typeName name : String)
  | textTooLong (bytes : Nat)
  | notAFunction (typeName : String)
  deriving DecidableEq

/-- Why there is no value. -/
inductive Fault where
  | malformed (fault : SyntaxFault)
  | runtime (fault : RuntimeFault)
  | timeout (milliseconds : Nat)
  | fuelExhausted (steps : Nat)
  | recursionLimit (depth : Nat)
  deriving DecidableEq

namespace Complaint

def message : Complaint → String
  | tooDeep => "nesting deeper than " ++ toString maxNesting ++ " levels"
  | expected token => "expected " ++ token.recordText
  | expectedEnd => "expected end of input"
  | expectedIdentifier => "expected identifier"
  | expectedExpression => "expected expression"
  | unclosedBlock => "unclosed block"
  | assignmentTarget => "invalid assignment target"
  | updateTarget => "invalid update target"
  | pastEnd => "expected token"

end Complaint

namespace SyntaxFault

def message : SyntaxFault → String
  | unexpectedText text offset => "unexpected '" ++ text ++ "' at " ++ toString offset
  | misplaced complaint (some found) =>
    complaint.message ++ ", found " ++ found.token.recordText ++ " at " ++ toString found.start
  | misplaced complaint none => complaint.message ++ ", found end of input"
  | notAFunction => "source is not a function"

end SyntaxFault

namespace RuntimeFault

def message : RuntimeFault → String
  | notDefined name => name ++ " is not defined"
  | noMathValue name => "Math." ++ name ++ " is not a value"
  | noMathFunction name => "Math." ++ name ++ " is not a function"
  | memberOfNothing property value => "cannot read '" ++ property ++ "' of " ++ value
  | notCallable typeName => typeName ++ " is not a function"
  | noMethod typeName name => typeName ++ "." ++ name ++ " is not a function"
  | textTooLong bytes =>
    "string of " ++ toString bytes ++ " bytes exceeds " ++ toString maxTextBytes
  | notAFunction typeName => "expected a function, found " ++ typeName

end RuntimeFault

namespace Fault

def message : Fault → String
  | malformed fault => "syntax error: " ++ fault.message
  | runtime fault => "runtime error: " ++ fault.message
  | timeout milliseconds => "evaluation exceeded " ++ toString milliseconds ++ " ms"
  | fuelExhausted steps => "evaluation exceeded " ++ toString steps ++ " steps"
  | recursionLimit depth => "recursion depth exceeded " ++ toString depth

/-- Whether the budget of the run is used up, so that no other attempt may follow. -/
def isBudget : Fault → Bool
  | timeout _ | fuelExhausted _ => true
  | _ => false

end Fault

/-- Where nothing went wrong there is a result, and nowhere else. -/
theorem toOption_eq_some_iff {ε α : Type} {outcome : Except ε α} {a : α} :
    outcome.toOption = some a ↔ outcome = .ok a := by
  cases outcome with
  | error fault => exact ⟨nofun, nofun⟩
  | ok b => exact ⟨fun h => congrArg Except.ok (Option.some.inj h), fun h => congrArg some (Except.ok.inj h)⟩

end SequenceNotation.Script
