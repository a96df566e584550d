import SequenceNotation.Number.Reading
import SequenceNotation.Script.Fault
import SequenceNotation.Text.Bytes
import SequenceNotation.Text.Digit

/-!
# From source text to tokens

At each place the longest lexeme is taken: blanks and line comments, which are skipped, or a token.
The letters and digits of names and numbers are ASCII.  Text that begins no lexeme is a fault.
-/

namespace SequenceNotation.Script

open SequenceNotation.Number SequenceNotation.Text

/-- What stands at a place of the source. -/
inductive Lexeme where
  | skipped
  | token (token : Token)
  | unreadable
  deriving DecidableEq

def isSourceBlank (c : Char) : Bool :=
  c = ' ' || c = '\t' || c = '\r' || c = '\n' || c = '\x0c'

def isNameStart (c : Char) : Bool :=
  c.isAlpha || c = '_' || c = '$'

def isNamePart (c : Char) : Bool :=
  isNameStart c || c.isDigit

def isHexDigit (c : Char) : Bool :=
  (radixDigit? 16 c).isSome

/-- The length of a hexadecimal literal at the start of the text; zero if there is none. -/
def hexLength : List Char → Nat
  | zero :: x :: rest =>
    let digits := runLength isHexDigit rest
    if zero = '0' ∧ (x = 'x' ∨ x = 'X') ∧ 0 < digits then 2 + digits else 0
  | _ => 0

/-- Whether a string literal is closed, and how many characters follow its opening quote up to and
including the closing one, or up to where it cannot be read on. -/
def stringTail (quote : Char) : List Char → Bool × Nat
  | [] => (false, 0)
  | '\\' :: c :: rest =>
    if c = '\n' then (false, 0)
    else
      let (closed, n) := stringTail quote rest
      (closed, n + 2)
  | c :: rest =>
    if c = quote then (true, 1)
    else if c = '\\' then (false, 0)
    else
      let (closed, n) := stringTail quote rest
      (closed, n + 1)

/-- The character that one behind a backslash stands for. -/
def escapeMeaning (c : Char) : Char :=
  if c = 'n' then '\n'
  else if c = 't' then '\t'
  else if c = 'r' then '\r'
  else if c = '0' then '\x00'
  else c

/-- The text that the inside of a string literal stands for. -/
def unescape : List Char → List Char
  | [] => []
  | '\\' :: c :: rest => escapeMeaning c :: unescape rest
  | c :: rest => if c = '\\' then unescape rest else c :: unescape rest

/-- The number that a hexadecimal literal stands for, if it fits 64 bits. -/
def hexValue? (digits : List Char) : Option Double :=
  ((readRadix? 16 digits).filter (· < Nat.pow 2 64)).map Double.ofNat

/-- The string literal behind its opening quote, and the number of its characters. -/
def stringAt (quote : Char) (text : List Char) : Lexeme × Nat :=
  let (closed, n) := stringTail quote text
  (if closed then .token (.string (String.ofList (unescape (text.take (n - 1))))) else .unreadable, n)

/-- The token of a name: a reserved word wins over an identifier. -/
def nameToken (name : String) : Token :=
  match Keyword.ofSpelling? name with
  | some word => .keyword word
  | none => .identifier name

/-- What a literal of a number stands for, if it is one. -/
def numberLexeme : Option Double → Lexeme
  | some value => .token (.number value)
  | none => .unreadable

/-- The number at the start of the text, if there is one, and the number of its characters. -/
def numberAt? (text : List Char) : Option (Lexeme × Nat) :=
  let hex := hexLength text
  let decimal := decimalLength text
  if 0 < hex then some (numberLexeme (hexValue? ((text.take hex).drop 2)), hex)
  else if 0 < decimal then some (numberLexeme (readUnsigned false (text.take decimal)), decimal)
  else none

/-- The mark at the start of the text, and the number of its characters. -/
def markAt (text : List Char) : Lexeme × Nat :=
  match Mark.atStart? text with
  | some (mark, n) => (.token (.mark mark), n)
  | none => (.unreadable, 1)

/-- The lexeme at the start of `c :: rest`, and how many characters of `rest` belong to it. -/
def lexemeAt (c : Char) (rest : List Char) : Lexeme × Nat :=
  if isSourceBlank c then (.skipped, runLength isSourceBlank rest)
  else if c = '/' ∧ rest.head? = some '/' then (.skipped, runLength (· ≠ '\n') rest)
  else if c = '"' ∨ c = '\'' then stringAt c rest
  else if isNameStart c then
    let n := runLength isNamePart rest
    (.token (nameToken (String.ofList (c :: rest.take n))), n)
  else
    let (lexeme, n) := (numberAt? (c :: rest)).getD (markAt (c :: rest))
    (lexeme, n - 1)

/-- The tokens of a text that begins at a byte offset of the source. -/
def tokensFrom (offset : Nat) : List Char → Except SyntaxFault (List PlacedToken)
  | [] => .ok []
  | c :: rest =>
    let (lexeme, n) := lexemeAt c rest
    let stop := offset + byteLength (c :: rest.take n)
    match lexeme with
    | .skipped => tokensFrom stop (rest.drop n)
    | .unreadable => .error (.unexpectedText (String.ofList (c :: rest.take n)) offset)
    | .token token =>
      match tokensFrom stop (rest.drop n) with
      | .ok tokens => .ok (⟨token, offset, stop⟩ :: tokens)
      | .error fault => .error fault
termination_by text => text.length
decreasing_by all_goals simp only [List.length_drop, List.length_cons]; omega

/-- The tokens of a source text in order. -/
def tokenize (source : String) : Except SyntaxFault (List PlacedToken) :=
  tokensFrom 0 source.toList

end SequenceNotation.Script
