import SequenceNotation.Text.Printable

/-!
# Quoted text

The two ways in which text is written between double quotes: as a literal of the expression language,
and in records for readers, where nothing unprintable is left.
-/

namespace SequenceNotation.Text

/-- A character inside a script literal. -/
def literalEscape (c : Char) : List Char :=
  if c = '"' then ['\\', '"']
  else if c = '\\' then ['\\', '\\']
  else if c = '\n' then ['\\', 'n']
  else if c = '\r' then ['\\', 'r']
  else if c = '\t' then ['\\', 't']
  else [c]

/-- A text as a double-quoted literal of the expression language. -/
def literalQuoted (text : List Char) : List Char :=
  '"' :: text.flatMap literalEscape ++ ['"']

/-- The code point of a character in braces, in hexadecimal. -/
def codeEscape (c : Char) : List Char :=
  ['\\', 'u', '{'] ++ Nat.toDigits 16 c.toNat ++ ['}']

/-- A character inside a quoted text of a record. -/
def recordEscape (c : Char) : List Char :=
  if c = '"' then ['\\', '"']
  else if c = '\\' then ['\\', '\\']
  else if c = '\n' then ['\\', 'n']
  else if c = '\r' then ['\\', 'r']
  else if c = '\t' then ['\\', 't']
  else if c = '\x00' then ['\\', '0']
  else if isPrintable c then [c]
  else codeEscape c

/-- A text in the quotes of a record. -/
def recordQuoted (text : String) : String :=
  String.ofList ('"' :: text.toList.flatMap recordEscape ++ ['"'])

end SequenceNotation.Text
