import SequenceNotation.Toml.Scalar

/-!
# TOML documents

A document is a row of lines with a key and its value, and of headers that name the table of the lines
behind them.  No key may be set twice, and no table may be opened twice.
-/

namespace SequenceNotation.Toml

/-- A part of a document under construction. -/
inductive Node where
  | value (data : Data)
  /-- A table; `implied` is one that only stands in a longer name, and `dotted` one that comes from a
  key with dots. -/
  | table (implied dotted : Bool) (entries : List (String × Node))
  /-- The tables of a row, the last one first. -/
  | rows (tables : List (List (String × Node)))

/-- Entries of a table under construction. -/
abbrev Entries := List (String × Node)

mutual

/-- The data of a node. -/
def Node.data : Node → Data
  | .value data => data
  | .table _ _ entries => .table (entriesData entries)
  | .rows tables => .list (tablesData tables).reverse

/-- The data of entries. -/
def entriesData : Entries → List (String × Data)
  | [] => []
  | (key, node) :: rest => (key, node.data) :: entriesData rest

/-- The data of tables. -/
def tablesData : List Entries → List Data
  | [] => []
  | entries :: rest => .table (entriesData entries) :: tablesData rest

end

/-- Changes the table at a path, which is made where it is missing; of a row it is the last one.  The
action is told whether the table comes from a key with dots. -/
def within (dotted : Bool) (action : Bool → Entries → Option Entries) :
    List String → Bool → Entries → Option Entries
  | [], isDotted, entries => action isDotted entries
  | key :: path, _, entries =>
    match entries.lookup key with
    | none => do
      let inner ← within dotted action path dotted []
      return setEntry key (.table true dotted inner) entries
    | some (.table implied isDotted inner) =>
      if dotted && !implied then none
      else do
        let inner ← within dotted action path isDotted inner
        return setEntry key (.table implied isDotted inner) entries
    | some (.rows (last :: earlier)) => do
      let last ← within dotted action path false last
      return setEntry key (.rows (last :: earlier)) entries
    | some _ => none

/-- Sets a new key. -/
def addValue (path : List String) (key : String) (data : Data) : Entries → Option Entries :=
  within true (fun isDotted entries =>
    if isDotted = path.isEmpty then none
    else if (entries.lookup key).isSome then none
    else some (setEntry key (.value data) entries)) path false

/-- Sets a new key whose parts are given. -/
def addAt (parts : List String) (data : Data) (entries : Entries) : Option Entries :=
  match parts.getLast? with
  | some key => addValue parts.dropLast key data entries
  | none => none

/-- Opens the table of a header. -/
def openTable (parts : List String) (entries : Entries) : Option Entries := do
  let key ← parts.getLast?
  within false (fun _ entries =>
    match entries.lookup key with
    | none => some (setEntry key (.table false false []) entries)
    | some (.table true false inner) => some (setEntry key (.table false false inner) entries)
    | some _ => none) parts.dropLast false entries

/-- Opens a new table in the row of a header. -/
def openRow (parts : List String) (entries : Entries) : Option Entries := do
  let key ← parts.getLast?
  within false (fun _ entries =>
    match entries.lookup key with
    | none => some (setEntry key (.rows [[]]) entries)
    | some (.rows tables) => some (setEntry key (.rows ([] :: tables)) entries)
    | some _ => none) parts.dropLast false entries

/-- What follows a comment, if there is one. -/
def skipComment (text : List Char) : List Char :=
  match text with
  | '#' :: rest => rest.dropWhile isPlain
  | rest => rest

/-- What follows the blanks, comments and line breaks of a list. -/
def skipLines : (rounds : Nat) → List Char → List Char
  | 0, text => text
  | rounds + 1, text =>
    let rest := skipComment (skipBlanks text)
    match skipLineBreak? rest with
    | some rest => skipLines rounds rest
    | none => rest

mutual

/-- The value at the start of a text, and what follows.  Every round takes a character, and every list or
table takes of the depth that is left. -/
def readValue? : (rounds depth : Nat) → List Char → Option (Data × List Char)
  | 0, _, _ => none
  | rounds + 1, depth, text =>
    match text, depth with
    | '"' :: _, _ | '\'' :: _, _ =>
      (readQuoted? true text).map fun (s, rest) => (.text s, rest)
    | '[' :: _, 0 | '\x7b' :: _, 0 => none
    | '[' :: rest, depth + 1 =>
      (readItems? rounds depth rest).map fun (items, rest) => (.list items, rest)
    | '\x7b' :: rest, depth + 1 =>
      match skipBlanks rest with
      | '\x7d' :: rest => some (.table [], rest)
      | rest => (readPairs? rounds depth [] rest).map fun (entries, rest) =>
          (.table (entriesData entries), rest)
    | _, _ => readScalar? text

/-- The items of a list up to its closing bracket. -/
def readItems? : (rounds depth : Nat) → List Char → Option (List Data × List Char)
  | 0, _, _ => none
  | rounds + 1, depth, text =>
    match skipLines (text.length + 1) text with
    | ']' :: rest => some ([], rest)
    | text => do
      let (item, rest) ← readValue? rounds depth text
      match skipLines (rest.length + 1) rest with
      | ',' :: rest => (readItems? rounds depth rest).map fun (items, rest) => (item :: items, rest)
      | ']' :: rest => return ([item], rest)
      | _ => none

/-- The keys and values of a table in braces up to the closing one. -/
def readPairs? : (rounds depth : Nat) → Entries → List Char → Option (Entries × List Char)
  | 0, _, _, _ => none
  | rounds + 1, depth, entries, text => do
    let (parts, rest) ← readKey? text
    match rest with
    | '=' :: rest =>
      let (data, rest) ← readValue? rounds depth (skipBlanks rest)
      let entries ← addAt parts data entries
      match skipBlanks rest with
      | ',' :: rest => readPairs? rounds depth entries rest
      | '\x7d' :: rest => return (entries, rest)
      | _ => none
    | _ => none

end

/-- What follows the end of a line; at the end of the document nothing. -/
def endLine? (text : List Char) : Option (List Char) :=
  match skipComment (skipBlanks text) with
  | [] => some []
  | rest => skipLineBreak? rest

/-- A header: whether it opens a row, its name, and what follows the line. -/
def readHeader? (text : List Char) : Option (Bool × List String × List Char) :=
  match text with
  | '[' :: '[' :: rest => do
    match ← readKey? rest with
    | (parts, ']' :: ']' :: rest) => return (true, parts, ← endLine? rest)
    | _ => none
  | '[' :: rest => do
    match ← readKey? rest with
    | (parts, ']' :: rest) => return (false, parts, ← endLine? rest)
    | _ => none
  | _ => none

/-- The entries of a document from a line on, given the name of the open table. -/
def readLinesOf? : (rounds : Nat) → (header : List String) → Entries → List Char → Option Entries
  | 0, _, _, _ => none
  | rounds + 1, header, entries, text =>
    match skipBlanks text with
    | [] => some entries
    | '[' :: rest => do
      let (opensRow, parts, rest) ← readHeader? ('[' :: rest)
      let entries ← if opensRow then openRow parts entries else openTable parts entries
      readLinesOf? rounds parts entries rest
    | c :: rest =>
      if c = '#' || c = '\n' || c = '\r' then do
        let rest ← endLine? (c :: rest)
        readLinesOf? rounds header entries rest
      else do
        match ← readKey? (c :: rest) with
        | (parts, '=' :: rest) =>
          let (data, rest) ← readValue? (rest.length + 1) maxDepth (skipBlanks rest)
          let entries ← within false (fun _ => addAt parts data) header false entries
          readLinesOf? rounds header entries (← endLine? rest)
        | _ => none

/-- The entries of a document. -/
def readDocument? (text : String) : Option (List (String × Data)) :=
  let text := match text.toList with
    | '\uFEFF' :: rest => rest
    | rest => rest
  (readLinesOf? (text.length + 1) [] [] text).map entriesData

end SequenceNotation.Toml
