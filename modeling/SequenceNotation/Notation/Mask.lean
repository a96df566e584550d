/-!
# Masks

A mask is a copy of a text in which nothing inside quotes or brackets shows: each byte there is replaced
by a filler character of one byte.  The outermost quotes and brackets stay, so places in the mask are
places in the text.  A literal that is not closed ends with the text.
-/

namespace SequenceNotation.Notation

/-- The character that covers a byte. -/
def filler : Char :=
  '\x01'

def isQuote (c : Char) : Bool :=
  c = '"' || c = '\'' || c = '\x60'

/-- The character that closes what a character opens. -/
def closer? (c : Char) : Option Char :=
  if isQuote c then some c
  else if c = '(' then some ')'
  else if c = '[' then some ']'
  else if c = '\x7b' then some '\x7d'
  else none

/-- What is open: the closing characters that are expected, innermost first, and whether a backslash
stands in front of the place. -/
structure OpenLiterals where
  closers : List Char := []
  escaped : Bool := false
  deriving DecidableEq, Repr

namespace OpenLiterals

/-- Nothing is open. -/
def none : OpenLiterals :=
  {}

/-- What is open behind a character.  Inside quotes only the closing quote counts, and only without a
backslash in front of it. -/
def after (literals : OpenLiterals) (c : Char) : OpenLiterals :=
  match literals.closers with
  | [] => { literals with closers := (closer? c).toList }
  | expected :: outer =>
    if isQuote expected && literals.escaped then { literals with escaped := false }
    else if isQuote expected && c = '\\' then { literals with escaped := true }
    else if c = expected then { literals with closers := outer }
    else if isQuote expected then literals
    else { literals with closers := (closer? c).toList ++ literals.closers }

/-- Whether a character shows: it stands outside of everything, or opens or closes the outermost
literal. -/
def shows (literals : OpenLiterals) (c : Char) : Bool :=
  literals.closers.isEmpty || (literals.after c).closers.isEmpty

end OpenLiterals

/-- The mask of a text in front of which the given literals are open. -/
def maskFrom (literals : OpenLiterals) : List Char → List Char
  | [] => []
  | c :: rest =>
    (if literals.shows c then [c] else List.replicate c.utf8Size filler) ++
      maskFrom (literals.after c) rest

/-- The mask of a text. -/
def mask (text : List Char) : List Char :=
  maskFrom .none text

/-- What is open at the end of a text. -/
def openAfter (literals : OpenLiterals) (text : List Char) : OpenLiterals :=
  text.foldl .after literals

theorem maskFrom_append (literals : OpenLiterals) (front back : List Char) :
    maskFrom literals (front ++ back) =
      maskFrom literals front ++ maskFrom (openAfter literals front) back := by
  induction front generalizing literals with
  | nil => rfl
  | cons c rest ih => simp [maskFrom, openAfter, ih]

end SequenceNotation.Notation
