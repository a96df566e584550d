import SequenceNotation.Text.CodeRange

/-!
# Blanks

White space of every script, and the operations that remove it from the ends of a text or cut a text
at it.
-/

namespace SequenceNotation.Text

/-- First and last code point of each run of white space. -/
def blankRanges : List (Nat × Nat) :=
  [(9, 13), (32, 32), (133, 133), (160, 160), (5760, 5760), (8192, 8202), (8232, 8233), (8239, 8239),
   (8287, 8287), (12288, 12288)]

/-- Whether the character is white space. -/
def isBlank (c : Char) : Bool :=
  inRanges blankRanges c.toNat

/-- The text without blanks at its start. -/
def trimLeft (text : List Char) : List Char :=
  text.dropWhile isBlank

/-- The text without blanks at its end. -/
def trimRight (text : List Char) : List Char :=
  (text.reverse.dropWhile isBlank).reverse

/-- The text without blanks at its ends. -/
def trim (text : List Char) : List Char :=
  trimRight (trimLeft text)

/-- The text without any blanks. -/
def withoutBlanks (text : List Char) : List Char :=
  text.filter fun c => !isBlank c

/-- The text up to the first blank after the blanks at its start; nothing if all is blank. -/
def firstWord? (text : List Char) : Option (List Char) :=
  match (trimLeft text).takeWhile fun c => !isBlank c with
  | [] => none
  | word => some word

end SequenceNotation.Text
