/-!
# Splitting

A text cut at certain characters.
-/

namespace SequenceNotation.Text

/-- The pieces of a text between the characters that satisfy `isCut`. -/
def splitWhere (isCut : Char → Bool) : List Char → List (List Char)
  | [] => [[]]
  | c :: rest =>
    if isCut c then [] :: splitWhere isCut rest
    else
      match splitWhere isCut rest with
      | piece :: pieces => (c :: piece) :: pieces
      | [] => [[c]]

theorem splitWhere_ne_nil (isCut : Char → Bool) (text : List Char) : splitWhere isCut text ≠ [] := by
  cases text with
  | nil => simp [splitWhere]
  | cons c rest =>
    unfold splitWhere
    split
    · simp
    · split <;> simp

/-- A line without the carriage return at its end. -/
def withoutReturn (line : List Char) : List Char :=
  if line.getLast? = some '\r' then line.dropLast else line

/-- The lines of a text.  What stands behind the last line break is a line as it is, unless it is empty. -/
def splitLines (text : List Char) : List (List Char) :=
  let pieces := splitWhere (· = '\n') text
  let ended := pieces.dropLast.map withoutReturn
  match pieces.getLast? with
  | none | some [] => ended
  | some last => ended ++ [last]

end SequenceNotation.Text
