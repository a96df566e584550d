import SequenceNotation.Text.Blank
import SequenceNotation.Text.Split

/-!
# List literals

A list literal is a row of items in square brackets, separated by commas or semicolons.  An item in quotes
may hold separators and brackets; any other item ends at a separator or at the closing bracket.  Text that
is no list literal is split at every separator.  Blanks around items and empty items are dropped.
-/

namespace SequenceNotation.Notation

open SequenceNotation.Text

def isSeparator (c : Char) : Bool :=
  c = ',' || c = ';'

/-- An item in the given quotes with the blanks around it, and what follows. -/
def quotedItem? (quote : Char) (text : List Char) : Option (List Char × List Char) :=
  match trimLeft text with
  | [] => none
  | c :: rest =>
    if c = quote then
      match rest.dropWhile (· ≠ quote) with
      | [] => none
      | _ :: after => some (rest.takeWhile (· ≠ quote), trimLeft after)
    else none

/-- Whether a character may stand in an item without quotes. -/
def isBare (c : Char) : Bool :=
  !isSeparator c && c ≠ ']'

/-- An item without quotes, and what follows. -/
def bareItem (text : List Char) : List Char × List Char :=
  (text.takeWhile isBare, text.dropWhile isBare)

/-- The item at the start of a text, and what follows. -/
def readItem (text : List Char) : List Char × List Char :=
  match quotedItem? '"' text, quotedItem? '\'' text with
  | some item, _ => item
  | none, some item => item
  | none, none => bareItem text

theorem dropWhile_length_le (p : Char → Bool) (text : List Char) :
    (text.dropWhile p).length ≤ text.length :=
  (List.dropWhile_suffix p).length_le

theorem quotedItem?_length {quote : Char} {text item rest : List Char}
    (h : quotedItem? quote text = some (item, rest)) : rest.length ≤ text.length := by
  have htrim := dropWhile_length_le isBlank text
  unfold quotedItem? trimLeft at h
  split at h
  · simp at h
  · next c inside hc =>
    rw [hc] at htrim
    have hinside := dropWhile_length_le (· ≠ quote) inside
    split at h
    · split at h
      · simp at h
      · next d after hafter =>
        have hrest := dropWhile_length_le isBlank after
        rw [hafter] at hinside
        simp only [Option.some.injEq, Prod.mk.injEq] at h
        rw [← h.2]
        simp only [List.length_cons] at htrim hinside
        omega
    · simp at h

theorem readItem_length (text : List Char) : (readItem text).2.length ≤ text.length := by
  unfold readItem
  split
  · next h => exact quotedItem?_length h
  · next h => exact quotedItem?_length h
  · exact dropWhile_length_le isBare text

/-- The items up to the closing bracket, which has to be the last character. -/
def readItems? (text : List Char) : Option (List (List Char)) :=
  match h : (readItem text).2 with
  | [] => none
  | c :: rest =>
    if c = ']' ∧ rest = [] then some [(readItem text).1]
    else if isSeparator c then
      have : rest.length < text.length :=
        Nat.lt_of_lt_of_le (by rw [h]; exact Nat.lt_succ_self _) (readItem_length text)
      (readItems? rest).map ((readItem text).1 :: ·)
    else none
termination_by text.length

/-- A text without the given character in front of it. -/
def withoutFirst (c : Char) : List Char → List Char
  | [] => []
  | d :: rest => if d = c then rest else d :: rest

/-- A text without the given character at its end. -/
def withoutLast (c : Char) (text : List Char) : List Char :=
  (withoutFirst c text.reverse).reverse

/-- What a character encloses on both sides. -/
def enclosed? (quote : Char) : List Char → Option (List Char)
  | [] => none
  | c :: rest => if c = quote ∧ rest.getLast? = some quote then some rest.dropLast else none

/-- A piece without the quotes that enclose it. -/
def withoutQuotes (piece : List Char) : List Char :=
  (enclosed? '"' piece <|> enclosed? '\'' piece).getD piece

/-- The pieces of a text, whose brackets are optional. -/
def splitItems (text : List Char) : List (List Char) :=
  (splitWhere isSeparator (withoutLast ']' (withoutFirst '[' (trim text)))).map
    fun piece => withoutQuotes (trim piece)

/-- Items without the blanks around them; empty ones are dropped. -/
def cleanItems (items : List (List Char)) : List String :=
  ((items.map trim).filter (· ≠ [])).map String.ofList

/-- The items of a list literal. -/
def readListLiteral (text : String) : List String :=
  let items? := match text.toList with
    | '[' :: rest => readItems? rest
    | _ => none
  cleanItems (items?.getD (splitItems text.toList))

/-- The items of a list without brackets. -/
def readBareList (text : String) : List String :=
  cleanItems (splitItems text.toList)

end SequenceNotation.Notation
