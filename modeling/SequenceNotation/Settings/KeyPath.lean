import SequenceNotation.Settings.Conversion
import SequenceNotation.Settings.Data

/-!
# Paths of keys

A setting is named by a path such as `lists[0].name`: a key, then keys behind dots and places in brackets.
Keys may hold spaces and do not depend on case.  Setting a value at a path makes what is missing on the
way.
-/

namespace SequenceNotation

open SequenceNotation.Text

inductive PathStep where
  | key (name : String)
  /-- A place in a list; a negative one is counted from the end. -/
  | place (n : Int)
  deriving DecidableEq, Repr

/-- Whether a character may stand in a key of a path. -/
def isPathChar (c : Char) : Bool :=
  c.isAlphanum || c = '_' || c = '-' || c = ' '

/-- A key at the start of a text, and what follows. -/
def spanPathKey? (text : List Char) : Option (String × List Char) :=
  match text.takeWhile isPathChar with
  | [] => none
  | key => some (String.ofList key, text.drop key.length)

/-- A place behind an opening bracket, and what follows the closing one.  It fits into 64 bits. -/
def spanPlace? (text : List Char) : Option (Int × List Char) :=
  let skip (text : List Char) := text.dropWhile fun c => c = ' ' || c = '\t'
  let text := skip text
  let (negative, text) := match text with
    | '-' :: rest => (true, rest)
    | rest => (false, rest)
  match readRadix? 10 (text.takeWhile Char.isDigit), skip (text.dropWhile Char.isDigit) with
  | some n, ']' :: rest =>
    let place : Int := if negative then -n else n
    if -(Nat.pow 2 63) ≤ place ∧ place < Nat.pow 2 63 then some (place, rest) else none
  | _, _ => none

/-- The steps of a path behind its first key.  Every round takes a character. -/
def readSteps? : (rounds : Nat) → List Char → Option (List PathStep)
  | _, [] => some []
  | 0, _ => none
  | rounds + 1, c :: rest =>
    if c = '.' then do
      let (name, rest) ← spanPathKey? rest
      return .key name :: (← readSteps? rounds rest)
    else if c = '[' then do
      let (n, rest) ← spanPlace? rest
      return .place n :: (← readSteps? rounds rest)
    else none

/-- The steps of a path. -/
def readPath? (text : String) : Option (List PathStep) := do
  let (name, rest) ← spanPathKey? text.toList
  return .key name :: (← readSteps? rest.length rest)

/-- The place in a list of a given length. -/
def listPlace (length : Nat) (n : Int) : Nat :=
  if 0 ≤ n then n.toNat else length - n.natAbs

namespace Data

/-- A list with an item set; places that are missing in front of it are null. -/
def setItem (items : List Data) (place : Nat) (value : Data) : List Data :=
  (items ++ List.replicate (place + 1 - items.length) null).set place value

/-- The entry of a table; null if it is missing. -/
def entry (data : Data) (name : String) : Data :=
  (data.entries.lookup (Conversion.folded name)).getD null

/-- A table with an entry set. -/
def setKey (data : Data) (name : String) (value : Data) : Data :=
  table (setEntry (Conversion.folded name) value data.entries)

mutual

/-- Merges a value into the entry of a table: a table entry by entry, and any other value in place of the
old one. -/
def merge (data : Data) (name : String) (value : Data) : Data :=
  match value with
  | table incoming =>
    let old := (data.entries.lookup (Conversion.folded name)).getD (table [])
    data.setKey name (old.mergeAll incoming)
  | value => data.setKey name value
termination_by sizeOf value

/-- Merges all entries into a table. -/
def mergeAll (data : Data) (incoming : List (String × Data)) : Data :=
  match incoming with
  | [] => data
  | (name, value) :: rest => (data.merge name value).mergeAll rest
termination_by sizeOf incoming

end

/-- Sets a value at a path. -/
def setAt (value : Data) : List PathStep → Data → Data
  | [], _ => value
  | [.key name], data => data.merge name value
  | .key name :: rest, data => data.setKey name (setAt value rest (data.entry name))
  | .place n :: rest, data =>
    let place := listPlace data.items.length n
    list (setItem data.items place (setAt value rest ((data.items[place]?).getD null)))

end Data

end SequenceNotation
