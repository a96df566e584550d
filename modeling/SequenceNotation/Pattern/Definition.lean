import SequenceNotation.Text.Blank

/-!
# Definitions of pattern texts

A pattern text is defined under a name and may refer to others as `{{name}}`.  Resolving a definition puts
the resolved text of each reference in its place, in a group of its own; inserted text is not read again.
A reference to an unknown name, or back to a name that is still being resolved, becomes a class that
nothing matches.  Resolved texts are kept and used again.
-/

namespace SequenceNotation.Pattern

open SequenceNotation.Text

/-- A class that no character belongs to. -/
def matchesNothing : List Char :=
  "[^\\s\\S]".toList

/-- A piece of a definition: a character of its text, or a reference. -/
inductive Piece where
  | char (c : Char)
  | reference (name : String)
  deriving DecidableEq, Repr

def isReferenceStart (c : Char) : Bool :=
  c.isAlpha || c = '_'

def isReferencePart (c : Char) : Bool :=
  isReferenceStart c || c.isDigit

/-- The reference behind an opening brace, if that is the first of a pair: its name, and how many
characters of the text it takes. -/
def referenceAt? (rest : List Char) : Option (String × Nat) :=
  match rest with
  | '\x7b' :: inside =>
    let behind := trimLeft inside
    let name := behind.takeWhile isReferencePart
    match name, trimLeft (behind.drop name.length) with
    | c :: _, '\x7d' :: '\x7d' :: after =>
      if isReferenceStart c then some (String.ofList name, rest.length - after.length) else none
    | _, _ => none
  | _ => none

/-- The pieces of a text. -/
def pieces : List Char → List Piece
  | [] => []
  | c :: rest =>
    match if c = '\x7b' then referenceAt? rest else none with
    | some (name, length) => .reference name :: pieces (rest.drop length)
    | none => .char c :: pieces rest
termination_by text => text.length
decreasing_by all_goals simp only [List.length_drop, List.length_cons]; omega

/-- Names with their pattern texts. -/
abbrev Definitions := List (String × String)

/-- Names with the texts that they have been resolved to. -/
abbrev Resolved := List (String × List Char)

/-- A text in a group that captures nothing. -/
def grouped (text : List Char) : List Char :=
  "(?:".toList ++ text ++ [')']

/-- The text of pieces, given how a reference is resolved. -/
def expand (resolve : String → Resolved → Option (List Char) × Resolved) :
    List Piece → Resolved → List Char × Resolved
  | [], resolved => ([], resolved)
  | .char c :: rest, resolved =>
    let (text, resolved) := expand resolve rest resolved
    (c :: text, resolved)
  | .reference name :: rest, resolved =>
    let (inner, resolved) := resolve name resolved
    let (text, resolved) := expand resolve rest resolved
    (grouped (inner.getD matchesNothing) ++ text, resolved)

/-- Resolves a name while the pending ones are being resolved.  There are never more of them than
definitions, so as many levels suffice. -/
def resolveName (definitions : Definitions) :
    (levels : Nat) → (pending : List String) → String → Resolved → Option (List Char) × Resolved
  | 0, _, _, resolved => (none, resolved)
  | levels + 1, pending, name, resolved =>
    match resolved.lookup name with
    | some text => (some text, resolved)
    | none =>
      if pending.contains name then (none, resolved)
      else
        match definitions.lookup name with
        | none => (none, resolved)
        | some source =>
          let (text, resolved) :=
            expand (resolveName definitions levels (name :: pending)) (pieces source.toList) resolved
          (some text, (name, text) :: resolved)

/-- Resolves the names of a list in order. -/
def resolveNames (definitions : Definitions) : List String → Resolved → List (String × List Char)
  | [], _ => []
  | name :: rest, resolved =>
    let (text, resolved) := resolveName definitions (definitions.length + 1) [] name resolved
    (name, withoutBlanks (text.getD matchesNothing)) :: resolveNames definitions rest resolved

/-- Every definition with its references resolved and without blanks. -/
def resolveDefinitions (definitions : Definitions) : List (String × List Char) :=
  resolveNames definitions (definitions.map (·.1)) []

end SequenceNotation.Pattern
