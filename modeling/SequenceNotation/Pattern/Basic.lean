import SequenceNotation.Text.Blank
import SequenceNotation.Text.Digit
import SequenceNotation.Text.Letter

/-!
# Patterns

Patterns over texts and how they match.  Of several ways to match, the one counts that prefers the earlier
alternative and the longer repetition at every choice; a search takes the first place at which there is
one.  Named parts are recorded.
-/

namespace SequenceNotation.Pattern

/-- A part of a class of characters. -/
inductive ClassItem where
  | range (first last : Char)
  | blank
  | notBlank
  deriving DecidableEq, Repr

/-- What a single character has to be. -/
inductive CharClass where
  | literal (c : Char)
  | notLineFeed
  | blank
  | digit
  | letter
  | items (negated : Bool) (items : List ClassItem)
  deriving DecidableEq, Repr

end SequenceNotation.Pattern

namespace SequenceNotation

/-- What a text has to be. -/
inductive Pattern where
  | empty
  | one (charClass : Pattern.CharClass)
  /-- The start of the whole text. -/
  | start
  /-- The end of the whole text. -/
  | finish
  | sequence (first second : Pattern)
  | choice (first second : Pattern)
  | named (name : String) (inner : Pattern)
  /-- As many repetitions as there are, from `least` up to `most`. -/
  | repeated (inner : Pattern) (least : Nat) (most : Option Nat)
  deriving DecidableEq, Repr

namespace Pattern

open SequenceNotation.Text

namespace ClassItem

def holds : ClassItem → Char → Bool
  | range first last, c => first ≤ c && c ≤ last
  | blank, c => isBlank c
  | notBlank, c => !isBlank c

end ClassItem

namespace CharClass

def holds : CharClass → Char → Bool
  | literal d, c => c = d
  | notLineFeed, c => c ≠ '\n'
  | blank, c => isBlank c
  | digit, c => isDecimalDigit c
  | letter, c => isLetter c
  | items negated list, c => (list.any (·.holds c)) != negated

end CharClass

/-- Named parts with the text that they matched. -/
abbrev Captures := List (String × List Char)

/-- What follows a match of a part: a place, counted in characters from the start of the whole text, the
text from there on, and the named parts so far. -/
abbrev Continuation (α : Type) := Nat → List Char → Captures → Option α

/-- The first of two results that there is. -/
def firstOf {α : Type} (first : Option α) (second : Unit → Option α) : Option α :=
  match first with
  | some a => some a
  | none => second ()

/-- Records a named part, in place of an earlier one of the name. -/
def Captures.record (captures : Captures) (name : String) (text : List Char) : Captures :=
  (name, text) :: captures.filter fun (other, _) => other ≠ name

/-- Repetitions of a part, greedily.  A repetition of nothing is the last; every other one shortens the
text, so `rounds` only has to exceed its length. -/
def repeatedly {α : Type} (part : Nat → List Char → Captures → Continuation α → Option α) :
    (rounds : Nat) → (least : Nat) → (most : Option Nat) → Nat → List Char → Captures →
      Continuation α → Option α
  | 0, _, _, _, _, _, _ => none
  | rounds + 1, least, most, place, text, captures, next =>
    let again := fun (_ : Unit) =>
      part place text captures fun place' text' captures' =>
        if text'.length < text.length then
          repeatedly part rounds (least - 1) (most.map (· - 1)) place' text' captures' next
        else next place' text' captures'
    let stop := fun (_ : Unit) => if least = 0 then next place text captures else none
    if most = some 0 then stop () else firstOf (again ()) stop

/-- Matches a pattern at a place and goes on with what follows; the first success counts. -/
def matchAt {α : Type} : Pattern → Nat → List Char → Captures → Continuation α → Option α
  | .empty, place, text, captures, next => next place text captures
  | .one charClass, place, text, captures, next =>
    match text with
    | c :: rest => if charClass.holds c then next (place + 1) rest captures else none
    | [] => none
  | .start, place, text, captures, next => if place = 0 then next place text captures else none
  | .finish, place, text, captures, next => if text = [] then next place text captures else none
  | .sequence first second, place, text, captures, next =>
    first.matchAt place text captures fun place text captures =>
      second.matchAt place text captures next
  | .choice first second, place, text, captures, next =>
    firstOf (first.matchAt place text captures next)
      fun _ => second.matchAt place text captures next
  | .named name inner, place, text, captures, next =>
    inner.matchAt place text captures fun place' text' captures' =>
      next place' text' (captures'.record name (text.take (text.length - text'.length)))
  | .repeated inner least most, place, text, captures, next =>
    repeatedly inner.matchAt (text.length + least + 1) least most place text captures next

/-- A match in a text: what stands in front of it, what it is, what follows, and its named parts. -/
structure Found where
  before : List Char
  matched : List Char
  after : List Char
  captures : Captures
  deriving DecidableEq, Repr

/-- The text of a named part, if it took part in the match. -/
def Found.part? (found : Found) (name : String) : Option (List Char) :=
  found.captures.lookup name

/-- The match at exactly the given place. -/
def foundAt? (pattern : Pattern) (place : Nat) (text : List Char) : Option Found :=
  pattern.matchAt place text [] fun _ rest captures =>
    some { before := [], matched := text.take (text.length - rest.length), after := rest, captures }

/-- The first match in a text that begins at a place of the whole text. -/
def findFrom? (pattern : Pattern) (place : Nat) : List Char → Option Found
  | [] => pattern.foundAt? place []
  | c :: rest =>
    firstOf (pattern.foundAt? place (c :: rest)) fun _ =>
      (pattern.findFrom? (place + 1) rest).map fun found => { found with before := c :: found.before }

/-- The first match in a whole text. -/
def find? (pattern : Pattern) (text : List Char) : Option Found :=
  pattern.findFrom? 0 text

/-- The pattern that nothing matches. -/
def nothing : Pattern :=
  .one (.items true [.blank, .notBlank])

end Pattern

end SequenceNotation
