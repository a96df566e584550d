import SequenceNotation.Script.Value
import SequenceNotation.Text.Case
import SequenceNotation.Text.Digit

/-!
# Operators, functions and methods that are built in

All of them are functions from values to a value or a fault of the run.  Only they make texts longer,
and none makes one longer than `maxTextBytes`.
-/

namespace SequenceNotation.Script

open SequenceNotation.Number SequenceNotation.Text

/-- A text value, unless it is too long. -/
def checkedText (text : String) : Except RuntimeFault Value :=
  if maxTextBytes < text.utf8ByteSize then .error (.textTooLong text.utf8ByteSize)
  else .ok (.text text)

/-- The order of two values: texts by code points, all else as numbers. -/
def compareValues? (left right : Value) : Option Ordering :=
  match left, right with
  | .text a, .text b => some (compare a b)
  | a, b => a.toNumber.compare? b.toNumber

/-- The sum: concatenation if one side is a text. -/
def addValues (left right : Value) : Except RuntimeFault Value :=
  match left, right with
  | .text a, b => checkedText (a ++ b.toText)
  | a, .text b => checkedText (a.toText ++ b)
  | a, b => .ok (.number (a.toNumber + b.toNumber))

/-- The value of a binary operator. -/
def applyBinary (operator : BinaryOperator) (left right : Value) : Except RuntimeFault Value :=
  match operator with
  | .add => addValues left right
  | .subtract => .ok (.number (left.toNumber - right.toNumber))
  | .multiply => .ok (.number (left.toNumber * right.toNumber))
  | .divide => .ok (.number (left.toNumber / right.toNumber))
  | .remainder => .ok (.number (left.toNumber.rem right.toNumber))
  | .power => .ok (.number (left.toNumber.pow right.toNumber))
  | .equal => .ok (.boolean (left.looseEqual right))
  | .notEqual => .ok (.boolean (!left.looseEqual right))
  | .strictEqual => .ok (.boolean (left.strictEqual right))
  | .strictNotEqual => .ok (.boolean (!left.strictEqual right))
  | .less => .ok (.boolean (compareValues? left right == some .lt))
  | .lessEqual => .ok (.boolean ((compareValues? left right).any (· != .gt)))
  | .greater => .ok (.boolean (compareValues? left right == some .gt))
  | .greaterEqual => .ok (.boolean ((compareValues? left right).any (· != .lt)))

/-- The value of a prefix operator. -/
def applyUnary (operator : UnaryOperator) (operand : Value) : Value :=
  match operator with
  | .negate => .number (-operand.toNumber)
  | .plus => .number operand.toNumber
  | .not => .boolean (!operand.isTruthy)
  | .typeof => .text operand.typeName

/-- An argument as a number; a missing one is NaN. -/
def numberArgument (arguments : List Value) (index : Nat) : Double :=
  (arguments[index]?.map Value.toNumber).getD .nan

/-- An argument as text; a missing one is empty. -/
def textArgument (arguments : List Value) (index : Nat) : String :=
  (arguments[index]?.map Value.toText).getD ""

/-- One or minus one as the number is positive or negative; zeros and NaN stay. -/
def signOf (x : Double) : Double :=
  if x.isZero || x.isNan then x
  else if x.signBit then -1
  else 1

/-- The argument that `wins` against all others, as numbers; a NaN wins always. -/
def extreme (wins : Double → Double → Bool) (start : Double) (arguments : List Value) : Double :=
  arguments.foldl
    (fun best argument =>
      let x := argument.toNumber
      if x.isNan || best.isNan then .nan else if wins x best then x else best)
    start

/-- The number at the start of a text behind blanks, NaN if there is none. -/
def leadingNumber (text : String) : Double :=
  let rest := trimLeft text.toList
  (readDouble (rest.take (numberLength rest))).getD .nan

/-- The integer at the start of a text behind blanks, in a radix from 2 to 36 or else in decimal; NaN
if there is none or it needs more than 63 bits. -/
def leadingInteger (text : String) (radix : Nat) : Double :=
  let radix := if 2 ≤ radix ∧ radix ≤ 36 then radix else 10
  let (negative, rest) := spanSign (trimLeft text.toList)
  let digits := rest.takeWhile fun c => (radixDigit? radix c).isSome
  match (readRadix? radix digits).filter (· < Nat.pow 2 63) with
  | some n => Double.ofWhole negative n
  | none => .nan

/-- The value of a built-in function, if there is one of that name. -/
def applyBuiltin? (name : String) (arguments : List Value) : Option Value :=
  let x := numberArgument arguments 0
  match name with
  | "abs" => some (.number x.abs)
  | "floor" => some (.number x.floor)
  | "ceil" => some (.number x.ceil)
  | "round" => some (.number (x + Double.div 1 2).floor)
  | "trunc" => some (.number x.trunc)
  | "sqrt" => some (.number x.sqrt)
  | "sign" => some (.number (signOf x))
  | "pow" => some (.number (x.pow (numberArgument arguments 1)))
  | "min" => some (.number (extreme Double.less Double.posInfinity arguments))
  | "max" => some (.number (extreme (fun a b => Double.less b a) Double.negInfinity arguments))
  | "isNaN" => some (.boolean x.isNan)
  | "isFinite" => some (.boolean x.isFinite)
  | "Number" => some (.number x)
  | "parseFloat" => some (.number (leadingNumber (textArgument arguments 0)))
  | "parseInt" =>
    let radix := (arguments[1]?.map fun r => r.toNumber.toNat32).getD 10
    some (.number (leadingInteger (textArgument arguments 0) radix))
  | "String" => some (.text (textArgument arguments 0))
  | _ => none

/-- The number of places that `toFixed` is asked for: none for NaN, at most a hundred. -/
def fixedPlacesArgument (arguments : List Value) : Nat :=
  ((numberArgument arguments 0).toInt 0 100).toNat

/-- The value of a method of a value. -/
def applyMethod (target : Value) (name : String) (arguments : List Value) :
    Except RuntimeFault Value :=
  match target, name with
  | .text s, "toUpperCase" => checkedText (String.ofList (upperText s.toList))
  | .text s, "toLowerCase" => checkedText (String.ofList (lowerText s.toList))
  | .text s, "trim" => .ok (.text (String.ofList (trim s.toList)))
  | .number n, "toFixed" => .ok (.text (n.toFixed (fixedPlacesArgument arguments)))
  | value, "toString" => .ok (.text value.toText)
  | value, _ => .error (.noMethod value.typeName name)

/-- The value of a property of a value; texts have a length. -/
def memberOf (target : Value) (property : String) : Except RuntimeFault Value :=
  match target, property with
  | .text s, "length" => .ok (.number (Double.ofNat s.length))
  | .undefined, _ => .error (.memberOfNothing property "undefined")
  | .null, _ => .error (.memberOfNothing property "null")
  | _, _ => .ok .undefined

end SequenceNotation.Script
