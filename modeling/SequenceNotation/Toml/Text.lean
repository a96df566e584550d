import SequenceNotation.Text.Digit

/-!
# Texts and keys in TOML

The four ways to quote a text, bare keys, and keys with dots in them.  A reader gives what it has read and
what follows; it fails on anything that is not written as it should be.
-/

namespace SequenceNotation.Toml

open SequenceNotation.Text

/-- Whether a character may stand on a line as it is. -/
def isPlain (c : Char) : Bool :=
  c = '\t' || (' ' ≤ c && c ≠ '\x7f')

def isLineBlank (c : Char) : Bool :=
  c = ' ' || c = '\t'

/-- The text without the blanks of the line at its start. -/
def skipBlanks (text : List Char) : List Char :=
  text.dropWhile isLineBlank

/-- What follows a line break. -/
def skipLineBreak? : List Char → Option (List Char)
  | '\n' :: rest => some rest
  | '\r' :: '\n' :: rest => some rest
  | _ => none

/-- The character of a code point in hexadecimal. -/
def charOfCode? (digits : List Char) : Option Char := do
  let code ← readRadix? 16 digits
  if code.isValidChar then return Char.ofNat code else none

/-- The character that a letter behind a backslash stands for. -/
def shortEscape? : Char → Option Char
  | 'b' => some '\x08'
  | 't' => some '\t'
  | 'n' => some '\n'
  | 'f' => some '\x0c'
  | 'r' => some '\r'
  | '"' => some '"'
  | '\\' => some '\\'
  | _ => none

/-- The character of what stands behind a backslash, and what follows. -/
def escape? : List Char → Option (Char × List Char)
  | 'u' :: rest => (charOfCode? (rest.take 4)).bind fun c =>
      if 4 ≤ rest.length then some (c, rest.drop 4) else none
  | 'U' :: rest => (charOfCode? (rest.take 8)).bind fun c =>
      if 8 ≤ rest.length then some (c, rest.drop 8) else none
  | c :: rest => (shortEscape? c).map fun d => (d, rest)
  | [] => none

/-- The text behind a double quote up to the next one.  Every round takes a character. -/
def readBasic? : (rounds : Nat) → List Char → Option (List Char × List Char)
  | 0, _ => none
  | _ + 1, [] => none
  | rounds + 1, c :: rest =>
    if c = '"' then some ([], rest)
    else if c = '\\' then do
      let (d, rest) ← escape? rest
      let (text, rest) ← readBasic? rounds rest
      return (d :: text, rest)
    else if isPlain c then (readBasic? rounds rest).map fun (text, rest) => (c :: text, rest)
    else none

/-- The text behind an apostrophe up to the next one. -/
def readLiteral? : List Char → Option (List Char × List Char)
  | [] => none
  | c :: rest =>
    if c = '\'' then some ([], rest)
    else if isPlain c then (readLiteral? rest).map fun (text, rest) => (c :: text, rest)
    else none

/-- Whether a backslash at this place joins lines: only blanks stand between it and the line break. -/
def joinsLines (rest : List Char) : Bool :=
  (skipLineBreak? (skipBlanks rest)).isSome

/-- The text without the blanks and line breaks at its start. -/
def skipBlankLines : List Char → List Char
  | [] => []
  | '\r' :: '\n' :: rest => skipBlankLines rest
  | c :: rest => if isLineBlank c || c = '\n' then skipBlankLines rest else c :: rest

/-- The text of several lines up to three quotes; up to two more quotes in front of those belong to it. -/
def readLines? (quote : Char) (escapes : Bool) : (rounds : Nat) → List Char →
    Option (List Char × List Char)
  | 0, _ => none
  | _ + 1, [] => none
  | rounds + 1, c :: rest =>
    let quotes := ((c :: rest).takeWhile (· = quote)).length
    if 3 ≤ quotes then
      let inner := min (quotes - 3) 2
      some (List.replicate inner quote, (c :: rest).drop (inner + 3))
    else
      match skipLineBreak? (c :: rest) with
      | some rest => (readLines? quote escapes rounds rest).map fun (text, rest) => ('\n' :: text, rest)
      | none =>
        if escapes && c = '\\' then
          if joinsLines rest then readLines? quote escapes rounds (skipBlankLines rest)
          else do
            let (d, rest) ← escape? rest
            let (text, rest) ← readLines? quote escapes rounds rest
            return (d :: text, rest)
        else if isPlain c then
          (readLines? quote escapes rounds rest).map fun (text, rest) => (c :: text, rest)
        else none

/-- A text in quotes; `lines` admits those of several lines. -/
def readQuoted? (lines : Bool) (text : List Char) : Option (String × List Char) :=
  let rounds := text.length + 1
  let behindBreak (rest : List Char) := (skipLineBreak? rest).getD rest
  let result := match text with
    | '"' :: '"' :: '"' :: rest =>
      if lines then readLines? '"' true rounds (behindBreak rest) else none
    | '\'' :: '\'' :: '\'' :: rest =>
      if lines then readLines? '\'' false rounds (behindBreak rest) else none
    | '"' :: rest => readBasic? rounds rest
    | '\'' :: rest => readLiteral? rest
    | _ => none
  result.map fun (text, rest) => (String.ofList text, rest)

/-- Whether a character may stand in a bare key. -/
def isKeyChar (c : Char) : Bool :=
  c.isAlphanum || c = '_' || c = '-'

/-- One part of a key. -/
def readKeyPart? (text : List Char) : Option (String × List Char) :=
  match text with
  | '"' :: _ | '\'' :: _ => readQuoted? false text
  | _ =>
    match text.takeWhile isKeyChar with
    | [] => none
    | key => some (String.ofList key, text.drop key.length)

/-- How deep lists and tables may lie in each other, and how many parts a key may have. -/
def maxDepth : Nat :=
  79

/-- The parts of a key between dots.  Every round takes a character. -/
def readKeyParts? : (rounds : Nat) → List Char → Option (List String × List Char)
  | 0, _ => none
  | rounds + 1, text => do
    let (part, rest) ← readKeyPart? (skipBlanks text)
    match skipBlanks rest with
    | '.' :: rest => (readKeyParts? rounds rest).map fun (parts, rest) => (part :: parts, rest)
    | rest => return ([part], rest)

/-- A key and what follows. -/
def readKey? (text : List Char) : Option (List String × List Char) :=
  (readKeyParts? (text.length + 1) text).filter fun (parts, _) => parts.length ≤ maxDepth

end SequenceNotation.Toml
