import SequenceNotation.Notation.ListLiteral
import SequenceNotation.Notation.Mask
import SequenceNotation.Notation.Segment
import SequenceNotation.Number.Reading
import SequenceNotation.Text.Quoted

/-!
# Starts

A line begins with its start, and what follows are modifiers.  A mark in front of the start says what kind
it is; without one it is a number, a word, nothing, or any other text, which stands for the selected text.
A start ends at a boundary of the masked line.
-/

namespace SequenceNotation.Notation

open SequenceNotation.Number SequenceNotation.Text
open SequenceNotation.Pattern (Found)

/-- The radix of a number. -/
inductive Radix where
  | binary | octal | decimal | hex
  deriving DecidableEq, Repr

namespace Radix

def base : Radix → Nat
  | binary => 2
  | octal => 8
  | decimal => 10
  | hex => 16

/-- What stands in front of the digits if the radix is to be shown. -/
def marker : Radix → String
  | binary => "0b"
  | octal => "0o"
  | decimal => ""
  | hex => "0x"

def name : Radix → String
  | binary => "Binary"
  | octal => "Octal"
  | decimal => "Decimal"
  | hex => "Hex"

/-- The radix that the letter of a marker stands for. -/
def ofMarker (text : List Char) : Radix :=
  match text with
  | [_, 'x'] | [_, 'X'] => hex
  | [_, 'o'] | [_, 'O'] => octal
  | [_, 'b'] | [_, 'B'] => binary
  | _ => decimal

end Radix

/-- What a sequence makes its values from. -/
inductive SequenceKind where
  | decimal (radix : Radix)
  | alpha | date | expression | ownList | predefinedList | function | textSelected | invalid
  deriving DecidableEq, Repr

/-- The name of a kind in records. -/
def SequenceKind.recordText : SequenceKind → String
  | decimal radix => "Decimal(" ++ radix.name ++ ")"
  | alpha => "Alpha"
  | date => "Date"
  | expression => "Expression"
  | ownList => "OwnList"
  | predefinedList => "PredefinedList"
  | function => "Function"
  | textSelected => "TextSelected"
  | invalid => "Invalid"

/-- A draw at random: how far from the start, to which side, and with how many places. -/
structure RandomSpread where
  negative : Bool
  magnitude : Double
  precision : Nat
  deriving DecidableEq

/-- The magnitude of a draw that gives none. -/
def defaultMagnitude : Double := 100

/-- A number as a start, with what its text says about how to print the others. -/
structure DecimalStart where
  radix : Radix := .decimal
  value : Double
  /-- The count of places, if there is a fraction. -/
  precision : Option Nat := none
  /-- The count of digits, if they begin with a zero. -/
  leadWidth : Option Nat := none
  uppercase : Bool := false
  random : Option RandomSpread := none
  deriving DecidableEq

/-- The parts of a date that are given. -/
structure DateStart where
  year : Option String := none
  month : Option Nat := none
  day : Option Nat := none
  deriving DecidableEq, Repr

/-- How a configured list is chosen: by its number, counted from one, or by an item. -/
inductive ListSelector where
  | number (n : Nat)
  | search (text : String)
  deriving DecidableEq, Repr

/-- A selector in records. -/
def ListSelector.recordText : ListSelector → String
  | number n => "Number(" ++ toString n ++ ")"
  | search text => "Search(" ++ recordQuoted text ++ ")"

/-- Why the body behind a mark is no start. -/
inductive StartFault where
  | notADate (body : String)
  | notAList (body : String)
  | noSelector
  | listNumber (text : String)
  | emptyExpression
  | notAFunction (body : String)
  deriving DecidableEq, Repr

def StartFault.message : StartFault → String
  | notADate body => "'" ++ body ++ "' is not a date"
  | notAList body => "'" ++ body ++ "' is not a list"
  | noSelector => "predefined list needs a number or search text"
  | listNumber text => "list number '" ++ text ++ "'"
  | emptyExpression => "expression is empty"
  | notAFunction body => "'" ++ body ++ "' does not select a function"

/-- The start of a sequence.  List positions and functions are numbered from one. -/
inductive Start where
  | decimal (start : DecimalStart)
  | alpha (word : String)
  | date (start : DateStart)
  | expression (source : String)
  | ownList (items : List String) (position : Nat)
  | predefined (selector : ListSelector)
  | function (number : Option Nat) (startAt : Option Double)
  | textSelected
  | invalid (fault : StartFault)
  deriving DecidableEq

def Start.kind : Start → SequenceKind
  | decimal start => .decimal start.radix
  | alpha _ => .alpha
  | date _ => .date
  | expression _ => .expression
  | ownList .. => .ownList
  | predefined _ => .predefinedList
  | function .. => .function
  | textSelected => .textSelected
  | invalid _ => .invalid

/-- The first number that no count reaches. -/
def countBound : Nat := Nat.pow 2 64

/-- The number in a named part, if the part is there and its text is a number below a bound. -/
def countIn? (found : Found) (name : String) (bound : Nat) : Option Nat :=
  (found.part? name).bind (readBounded? bound)

/-- The text of the first of the named parts that is there. -/
def firstPart (found : Found) (names : List String) : String :=
  String.ofList ((names.findSome? found.part?).getD [])

/-- Whether a named part is a minus sign. -/
def isMinus (found : Found) (name : String) : Bool :=
  found.part? name = some ['-']

/-- The digits of a number with its radix, its value without sign, and its count of places. -/
def readMagnitude? (found : Found) : Option (Radix × Double × Option Nat × List Char) :=
  match found.part? "radix", found.part? "int" with
  | some marker, _ => do
    let digits ← found.part? "radix_digits"
    let radix := Radix.ofMarker marker
    let n ← (readRadix? radix.base digits).filter (· < countBound)
    return (radix, Double.ofNat n, none, digits)
  | none, some whole => do
    let fraction := found.part? "frac"
    let text := match fraction with
      | some fraction => whole ++ '.' :: fraction
      | none => whole
    let value ← readDouble text
    return (.decimal, value, fraction.map byteLength, whole)
  | none, none => none

/-- The draw that a number asks for.  A magnitude that is no number counts as none. -/
def readSpread (found : Found) : RandomSpread :=
  { negative := isMinus found "random_sign"
    magnitude := ((found.part? "magnitude").bind readDouble).getD defaultMagnitude
    precision := ((found.part? "random_frac").map byteLength).getD 0 }

/-- A number as a start. -/
def readDecimal? (segments : Segments) (body : List Char) : Option DecimalStart := do
  let found ← segments.find? "decimal_body" body
  let (radix, magnitude, precision, digits) ← readMagnitude? found
  return {
    radix
    value := if isMinus found "sign" then -magnitude else magnitude
    precision
    leadWidth :=
      if 1 < byteLength digits ∧ digits.head? = some '0' then some (byteLength digits) else none
    uppercase := radix ≠ .decimal && digits.any Char.isUpper
    random := (found.part? "random").map fun _ => readSpread found }

/-- The body of a date. -/
def readDateStart (segments : Segments) (body : List Char) : Start :=
  match segments.find? "date_body" body with
  | none => .invalid (.notADate (String.ofList body))
  | some found =>
    .date
      { year := (found.part? "year").map String.ofList
        month := countIn? found "month" (Nat.pow 2 32)
        day := countIn? found "day" (Nat.pow 2 32) }

/-- The body of a list.  A position that is no count is the first one. -/
def readOwnList (segments : Segments) (body : List Char) : Start :=
  match segments.find? "own_body" body with
  | none => .invalid (.notAList (String.ofList body))
  | some found =>
    let items := match found.part? "list", found.part? "bare" with
      | some list, _ => readListLiteral (String.ofList list)
      | none, some bare => readBareList (String.ofList bare)
      | none, none => []
    .ownList items (max ((countIn? found "start" countBound).getD 1) 1)

/-- The body that chooses a configured list. -/
def readPredefined (segments : Segments) (body : List Char) : Start :=
  match segments.find? "predef_body" body with
  | none => .invalid .noSelector
  | some found =>
    match found.part? "number" with
    | some digits =>
      match readBounded? countBound digits with
      | some n => .predefined (.number n)
      | none => .invalid (.listNumber (String.ofList digits))
    | none => .predefined (.search (firstPart found ["dquoted", "squoted", "text"]))

/-- The body of an expression. -/
def readExpression (segments : Segments) (body : List Char) : Start :=
  match segments.find? "expr_body" body with
  | none => .invalid .emptyExpression
  | some found => .expression (firstPart found ["dquoted", "squoted", "bare"])

/-- The body that chooses a function. -/
def readFunction (segments : Segments) (body : List Char) : Start :=
  match segments.find? "func_body" body with
  | none => .invalid (.notAFunction (String.ofList body))
  | some found =>
    .function (countIn? found "number" countBound) ((found.part? "start_at").bind readDouble)

/-- The kinds of start that have a mark. -/
inductive StartMark where
  | date | ownList | predefined | expression | function
  deriving DecidableEq, Repr

namespace StartMark

/-- All marks in the order in which they are tried. -/
def all : List StartMark :=
  [date, ownList, predefined, expression, function]

/-- The segment of a mark. -/
def segmentName : StartMark → String
  | date => "date_prefix"
  | ownList => "own_prefix"
  | predefined => "predef_prefix"
  | expression => "expr_prefix"
  | function => "func_prefix"

/-- How the body behind a mark is read. -/
def read : StartMark → Segments → List Char → Start
  | date => readDateStart
  | ownList => readOwnList
  | predefined => readPredefined
  | expression => readExpression
  | function => readFunction

/-- Where the body behind a mark ends. -/
def bodyEnd (mark : StartMark) (segments : Segments) (masked : List Char) (offset : Nat) : Nat :=
  match mark with
  | expression => segments.expressionBoundaryAfter masked offset
  | _ => segments.boundaryAfter masked offset

/-- How many bytes of a mark are no part of the body: the bracket of a list is one. -/
def bytesInFront (mark : StartMark) (found : Found) : Nat :=
  if mark = ownList ∧ found.matched = ['['] then 0
  else byteLength (found.before ++ found.matched)

end StartMark

/-- The start without a mark.  If there is none, the default start counts, and one if that is no
number. -/
def readUnmarked (segments : Segments) (defaultStart : String) (body : List Char) : Start :=
  if body = [] then
    .decimal ((readDecimal? segments (trim defaultStart.toList)).getD { value := 1 })
  else
    match readDecimal? segments body with
    | some start => .decimal start
    | none =>
      match (segments.find? "alpha_body" body).bind (·.part? "word") with
      | some word => .alpha (String.ofList word)
      | none => .textSelected

/-- A line taken apart: its start and the text of its modifiers. -/
structure Classified where
  start : Start
  remainder : String
  deriving DecidableEq

/-- The mark in front of a masked line, and how many bytes it takes. -/
def findMark? (segments : Segments) (masked : List Char) : Option (StartMark × Nat) :=
  StartMark.all.findSome? fun mark =>
    (segments.find? mark.segmentName masked).map fun found => (mark, mark.bytesInFront found)

/-- Takes a line apart, blanks at its ends aside. -/
def classify (segments : Segments) (defaultStart line : String) : Classified :=
  let text := trim line.toList
  let masked := mask text
  match findMark? segments masked with
  | some (mark, bodyStart) =>
    let bodyEnd := mark.bodyEnd segments masked bodyStart
    { start := mark.read segments (sliceBytes bodyStart bodyEnd text)
      remainder := String.ofList (splitAtByte bodyEnd text).2 }
  | none =>
    let (body, remainder) := splitAtByte (segments.boundaryAfter masked 0) text
    { start := readUnmarked segments defaultStart body
      remainder := String.ofList remainder }

end SequenceNotation.Notation
