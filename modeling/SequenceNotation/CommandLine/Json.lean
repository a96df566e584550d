import SequenceNotation.Number.Text
import SequenceNotation.Settings.Data

/-!
# JSON text

Data written as JSON over several lines, two blanks further in for each level.
-/

namespace SequenceNotation.CommandLine

open SequenceNotation.Number

/-- A hexadecimal digit. -/
def hexDigit (n : Nat) : Char :=
  (Nat.toDigits 16 n).headD '0'

/-- A character between the quotes. -/
def jsonEscape (c : Char) : List Char :=
  if c = '"' then ['\\', '"']
  else if c = '\\' then ['\\', '\\']
  else if c = '\n' then ['\\', 'n']
  else if c = '\r' then ['\\', 'r']
  else if c = '\t' then ['\\', 't']
  else if c = '\x08' then ['\\', 'b']
  else if c = '\x0c' then ['\\', 'f']
  else if c < ' ' then ['\\', 'u', '0', '0', hexDigit (c.toNat / 16), hexDigit (c.toNat % 16)]
  else [c]

def jsonQuoted (text : String) : String :=
  String.ofList ('"' :: text.toList.flatMap jsonEscape ++ ['"'])

/-- The blanks in front of a line. -/
def indentation (level : Nat) : String :=
  String.ofList (List.replicate (2 * level) ' ')

/-- Parts on lines of their own between an opening and a closing text. -/
def block (level : Nat) (opening closing : String) (parts : List String) : String :=
  if parts = [] then opening ++ closing
  else
    let line (part : String) := indentation (level + 1) ++ part
    opening ++ "\n" ++ ",\n".intercalate (parts.map line) ++ "\n" ++ indentation level ++ closing

mutual

/-- Data at a level. -/
def jsonText (level : Nat) : Data → String
  | .null => "null"
  | .boolean b => if b then "true" else "false"
  | .integer n => toString n
  | .float x => if x.isFinite then x.toRecordText else "null"
  | .text s => jsonQuoted s
  | .list items => block level "[" "]" (jsonItems (level + 1) items)
  | .table entries => block level "\x7b" "\x7d" (jsonEntries (level + 1) entries)

def jsonItems (level : Nat) : List Data → List String
  | [] => []
  | item :: rest => jsonText level item :: jsonItems level rest

def jsonEntries (level : Nat) : List (String × Data) → List String
  | [] => []
  | (key, value) :: rest => (jsonQuoted key ++ ": " ++ jsonText level value) :: jsonEntries level rest

end

end SequenceNotation.CommandLine
