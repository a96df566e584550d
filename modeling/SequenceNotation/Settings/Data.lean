import SequenceNotation.Number.Double

/-!
# Data

What settings are read from: nested tables and lists of plain values, whatever format they were written in.
-/

namespace SequenceNotation

open SequenceNotation.Number

inductive Data where
  | null
  | boolean (b : Bool)
  | integer (n : Int)
  | float (x : Double)
  | text (s : String)
  | list (items : List Data)
  | table (entries : List (String × Data))
  deriving Inhabited

namespace Data

/-- The entries of a table; other data have none. -/
def entries : Data → List (String × Data)
  | table entries => entries
  | _ => []

/-- The items of a list; other data have none. -/
def items : Data → List Data
  | list items => items
  | _ => []

end Data

/-- Entries with a key set: in its place if it is there, else at the end. -/
def setEntry {α : Type} (key : String) (value : α) : List (String × α) → List (String × α)
  | [] => [(key, value)]
  | (k, v) :: rest => if k = key then (key, value) :: rest else (k, v) :: setEntry key value rest

theorem lookup_setEntry {α : Type} (key : String) (value : α) (entries : List (String × α)) :
    (setEntry key value entries).lookup key = some value := by
  induction entries with
  | nil => simp [setEntry]
  | cons entry rest ih =>
    obtain ⟨k, v⟩ := entry
    by_cases h : k = key
    · simp [setEntry, h]
    · have : (key == k) = false := by simpa using fun h' => h h'.symm
      simp [setEntry, h, List.lookup_cons, this, ih]

end SequenceNotation
