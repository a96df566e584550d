import SequenceNotation.Number.Reading
import SequenceNotation.Script.Fault
import SequenceNotation.Script.Tree
import SequenceNotation.Text.Blank

/-!
# Values of scripts

The values that expressions have, how they convert to truth, number and text, and when two of them are
equal.
-/

namespace SequenceNotation.Script

open SequenceNotation.Number SequenceNotation.Text

/-- A value.  A function carries the variables it captured and the number under which it was created,
by which functions are told apart. -/
inductive Value where
  | undefined
  | null
  | boolean (value : Bool)
  | number (value : Double)
  | text (text : String)
  | function (identity : Nat) (parameters : List String) (body : FunctionBody)
      (captured : List (String × Value))

/-- Variables and their values. -/
abbrev Frame := List (String × Value)

namespace Frame

/-- The value of a variable. -/
def get? (frame : Frame) (name : String) : Option Value :=
  frame.lookup name

/-- Gives a variable a value; a new one comes last. -/
def set : Frame → String → Value → Frame
  | [], name, value => [(name, value)]
  | (other, old) :: rest, name, value =>
    if other = name then (name, value) :: rest else (other, old) :: set rest name value

end Frame

namespace Value

instance : Inhabited Value := ⟨.undefined⟩

def isUndefined : Value → Bool
  | undefined => true
  | _ => false

def isNullish : Value → Bool
  | undefined | null => true
  | _ => false

/-- Whether the value is undefined, null or the empty text. -/
def isEmpty : Value → Bool
  | undefined | null => true
  | text s => s.isEmpty
  | _ => false

def isTruthy : Value → Bool
  | undefined | null => false
  | boolean b => b
  | number n => !n.isZero && !n.isNan
  | text s => !s.isEmpty
  | function .. => true

/-- The number that a text between blanks stands for. -/
def readNumber? (s : String) : Option Double :=
  readDouble (trim s.toList)

/-- The value as a number; text that is none becomes NaN, blank text zero. -/
def toNumber : Value → Double
  | undefined => .nan
  | null => 0
  | boolean b => if b then 1 else 0
  | number n => n
  | text s => if (trim s.toList).isEmpty then 0 else (readNumber? s).getD .nan
  | function .. => .nan

/-- The number of a finite number value. -/
def finiteNumber? : Value → Option Double
  | number n => if n.isFinite then some n else none
  | _ => none

/-- The finite number that the value is or that its text reads as. -/
def numeric? : Value → Option Double
  | number n => if n.isFinite then some n else none
  | text s => (readNumber? s).filter Double.isFinite
  | _ => none

def typeName : Value → String
  | undefined => "undefined"
  | null => "object"
  | boolean _ => "boolean"
  | number _ => "number"
  | text _ => "string"
  | function .. => "function"

/-- The value as text. -/
def toText : Value → String
  | undefined => "undefined"
  | null => "null"
  | boolean b => if b then "true" else "false"
  | number n => n.toText
  | text s => s
  | function .. => "function"

/-- The value as text for output, where undefined and null leave nothing. -/
def toOutput : Value → String
  | undefined | null => ""
  | value => value.toText

/-- Equality without conversion: a NaN differs from itself, a function equals only itself. -/
def strictEqual : Value → Value → Bool
  | undefined, undefined => true
  | null, null => true
  | boolean a, boolean b => a == b
  | number a, number b => a.equal b
  | text a, text b => a == b
  | function a _ _ _, function b _ _ _ => a == b
  | _, _ => false

/-- Equality with conversion: undefined and null are equal to each other and to nothing else, texts
and functions are compared as they are, and all else as numbers. -/
def looseEqual (a b : Value) : Bool :=
  if a.isNullish || b.isNullish then a.isNullish && b.isNullish
  else
    match a, b with
    | text s, text t => s == t
    | function i _ _ _, function j _ _ _ => i == j
    | a, b => a.toNumber.equal b.toNumber

end Value

end SequenceNotation.Script
