import SequenceNotation.Sequence.Placeholder
import SequenceNotation.Text.Word

/-!
# Substitution of placeholders

Before an expression is evaluated, every placeholder that stands alone as a word is replaced by a literal
of its value.  Text between quotes and names behind a point are left alone.
-/

namespace SequenceNotation.Sequence

open SequenceNotation.Number SequenceNotation.Script SequenceNotation.Text

/-- The source text of a number; in parentheses if it is negative or a member follows. -/
def numberLiteral (n : Double) (memberFollows : Bool) : List Char :=
  if n.isNan then "NaN".toList
  else if n.less 0 || memberFollows then '(' :: n.toText.toList ++ [')']
  else n.toText.toList

/-- The source text of a value: a bare number if it reads as one, and otherwise a quoted text. -/
def literalOf (value : Value) (memberFollows : Bool) : List Char :=
  match value with
  | .number n => numberLiteral n memberFollows
  | other =>
    match other.numeric? with
    | some n => numberLiteral n memberFollows
    | none => literalQuoted other.toOutput.toList

/-- The quotes that enclose a text which is left alone. -/
inductive Quote where
  | double | single | back
  deriving DecidableEq

def Quote.char : Quote → Char
  | double => '"'
  | single => '\''
  | back => '\x60'

/-- The quote that a character is. -/
def Quote.ofChar? (c : Char) : Option Quote :=
  if c = '"' then some .double
  else if c = '\'' then some .single
  else if c = '\x60' then some .back
  else none

/-- Where the substitution stands: in code behind a character, or between quotes. -/
inductive SubstitutionMode where
  | code (before : Option Char)
  | quoted (quote : Quote) (escaped : Bool)

namespace SubstitutionMode

/-- Where the substitution stands behind one more character. -/
def next : SubstitutionMode → Char → SubstitutionMode
  | .code _, c =>
    match Quote.ofChar? c with
    | some quote => .quoted quote false
    | none => .code (some c)
  | .quoted quote escaped, c =>
    if escaped then .quoted quote false
    else if c = '\\' then .quoted quote true
    else if c = quote.char then .code none
    else .quoted quote false

/-- The placeholder that a character is, given what follows it: one that stands alone as a word. -/
def placeholder? : SubstitutionMode → Char → Option Char → Option Placeholder
  | .code before, c, after =>
    if before.any isWord || after.any isWord || before = some '.' then none
    else Placeholder.ofChar? c
  | .quoted _ _, _, _ => none

end SubstitutionMode

/-- What stands for a character, given what follows it. -/
def replacement (values : PlaceholderValues) (mode : SubstitutionMode) (c : Char)
    (after : Option Char) : List Char :=
  match mode.placeholder? c after with
  | some placeholder => literalOf (values.lookup placeholder) (after = some '.')
  | none => [c]

/-- The source text from a place on with its placeholders replaced. -/
def substituteFrom (values : PlaceholderValues) : SubstitutionMode → List Char → List Char
  | _, [] => []
  | mode, c :: rest =>
    replacement values mode c rest.head? ++ substituteFrom values (mode.next c) rest

/-- The source text with every placeholder replaced by a literal of its value. -/
def substitute (source : String) (values : PlaceholderValues) : String :=
  String.ofList (substituteFrom values (.code none) source.toList)

end SequenceNotation.Sequence
