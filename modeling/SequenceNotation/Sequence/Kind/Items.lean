import SequenceNotation.Sequence.Producer
import SequenceNotation.Sequence.Rendering

/-!
# Sequences of items

The items of a list follow each other and begin again behind the last one.  The list is written in the
line, or it is one of the configured lists, which is chosen by its number or by one of its items.
-/

namespace SequenceNotation.Sequence

open SequenceNotation.Number SequenceNotation.Script SequenceNotation.Notation
open SequenceNotation.Text

/-- An integer in 64 bits with a sign. -/
def wrap64 (n : Int) : Int :=
  n.bmod (Nat.pow 2 64)

/-- The item at a distance from a place, in a circle. -/
def cycle? (items : List String) (offset : Int) (distance : Double) : Option String :=
  items[(wrap64 (offset + distance.round.toInt64) % items.length).toNat]?

/-- The result of an expression as a text, if it is defined. -/
def textOfResult (own : String) (result : Value) : String :=
  if result.isUndefined then own else result.toOutput

/-- How an item is looked for. -/
structure SearchOptions where
  ignoreCase : Bool := false
  /-- The whole item has to match. -/
  fullMatch : Bool := false
  /-- The start of the item has to match. -/
  prefixMatch : Bool := false
  deriving DecidableEq, Repr

/-- Whether a text stands somewhere in another one. -/
def occursIn (part : List Char) : List Char → Bool
  | [] => part.isEmpty
  | c :: rest => part.isPrefixOf (c :: rest) || occursIn part rest

namespace SearchOptions

/-- The options `i`, `f` and `s`. -/
def ofModifiers (modifiers : Modifiers) : SearchOptions :=
  { ignoreCase := modifiers.hasOption 'i'
    fullMatch := modifiers.hasOption 'f'
    prefixMatch := modifiers.hasOption 's' }

/-- Whether an item is what is looked for. -/
def accepts (options : SearchOptions) (item sought : String) : Bool :=
  let fold (text : String) := if options.ignoreCase then lowerText text.toList else text.toList
  if options.fullMatch then fold item = fold sought
  else if options.prefixMatch then (fold sought).isPrefixOf (fold item)
  else occursIn (fold sought) (fold item)

end SearchOptions

/-- The list that is chosen, and the place where it begins. -/
def selectList? (lists : List (List String)) (selector : ListSelector) (options : SearchOptions) :
    Option (List String × Nat) :=
  match selector with
  | .number n => if n = 0 then none else (lists[n - 1]?).map fun list => (list, 0)
  | .search sought =>
    lists.findSome? fun list =>
      (list.findIdx? fun item => options.accepts item sought).map fun place => (list, place)

structure ItemSequence where
  items : List String
  /-- The place of the first item, counted from zero. -/
  offset : Int
  folding : Folding
  padding : Option String

namespace ItemSequence

variable (sequence : ItemSequence)

/-- The item at an index. -/
def itemAt? (index : Nat) : Option String :=
  cycle? sequence.items sequence.offset (sequence.folding.logicalIndex index)

/-- The item where the sequence begins; empty without items. -/
def first : String :=
  (cycle? sequence.items sequence.offset 0).getD ""

/-- The expression selects the text of its result. -/
def producer : Producer String where
  own? _ index _ := (sequence.itemAt? index).map pure
  shown := .text
  select own result := pure (textOfResult own result)
  settled := .text
  text := renderText sequence.padding

end ItemSequence

end SequenceNotation.Sequence
