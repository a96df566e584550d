import SequenceNotation.Pattern.Basic

/-!
# Reading patterns

A pattern text is read character by character.  The state holds the alternatives and items of the
innermost group and of the groups around it.  Besides literal characters there are `.`, `^`, `$`, `|`,
classes in brackets, `\s`, `\d`, `\p{L}`, groups `(?:…)` and `(?P<name>…)`, and the repetitions `?`, `*`,
`+`, `{n}` and `{n,m}`.
-/

namespace SequenceNotation.Pattern

open SequenceNotation.Text

/-- What has been read of a group, last part first. -/
structure Branches where
  done : List Pattern := []
  items : List Pattern := []
  deriving DecidableEq, Repr

/-- A class in brackets as far as it has been read. -/
structure ClassState where
  negated : Bool := false
  items : List ClassItem := []
  /-- The character that a range could begin with. -/
  last : Option Char := none
  /-- Whether a dash stands behind that character. -/
  dash : Bool := false
  deriving DecidableEq, Repr

/-- What the next character belongs to. -/
inductive ReadingMode where
  | plain
  | escaped
  | property (text : List Char)
  | groupHead (text : List Char)
  | classHead
  | inClass (state : ClassState)
  | escapedInClass (state : ClassState)
  | count (text : List Char)
  deriving DecidableEq, Repr

structure ReadingState where
  mode : ReadingMode := .plain
  inner : Branches := {}
  /-- The groups around the innermost one, with the name of the group that each of them holds. -/
  outer : List (Option String × Branches) := []
  failed : Bool := false
  deriving DecidableEq, Repr

/-- Items one after the other; the list has the last one first. -/
def sequenceOf (items : List Pattern) : Pattern :=
  items.foldl (fun tail item => match tail with
    | .empty => item
    | tail => .sequence item tail) .empty

/-- The pattern of a group that has been read. -/
def Branches.pattern (branches : Branches) : Pattern :=
  branches.done.foldl (fun tail branch => .choice branch tail) (sequenceOf branches.items)

namespace ReadingState

def fail (state : ReadingState) : ReadingState :=
  { state with failed := true }

/-- Adds an item to the innermost group. -/
def push (state : ReadingState) (item : Pattern) : ReadingState :=
  { state with
    mode := .plain
    inner := { state.inner with items := item :: state.inner.items } }

/-- Adds a single character of a class. -/
def pushClass (state : ReadingState) (charClass : CharClass) : ReadingState :=
  state.push (.one charClass)

/-- Repeats the last item. -/
def repeatLast (state : ReadingState) (least : Nat) (most : Option Nat) : ReadingState :=
  match state.inner.items with
  | item :: rest =>
    { state with
      mode := .plain
      inner := { state.inner with items := .repeated item least most :: rest } }
  | [] => state.fail

/-- Begins the next alternative. -/
def alternate (state : ReadingState) : ReadingState :=
  { state with
    inner := { done := sequenceOf state.inner.items :: state.inner.done, items := [] } }

/-- Opens a group. -/
def openGroup (state : ReadingState) (name : Option String) : ReadingState :=
  { state with
    mode := .plain
    inner := {}
    outer := (name, state.inner) :: state.outer }

/-- Closes the innermost group. -/
def closeGroup (state : ReadingState) : ReadingState :=
  match state.outer with
  | [] => state.fail
  | (name, around) :: rest =>
    let pattern := match name with
      | some name => Pattern.named name state.inner.pattern
      | none => state.inner.pattern
    { state with
      inner := { around with items := pattern :: around.items }
      outer := rest }

/-- Reads a character outside classes and escapes. -/
def readPlain (state : ReadingState) (c : Char) : ReadingState :=
  match c with
  | '\\' => { state with mode := .escaped }
  | '[' => { state with mode := .classHead }
  | '(' => { state with mode := .groupHead [] }
  | ')' => state.closeGroup
  | '|' => state.alternate
  | '?' => state.repeatLast 0 (some 1)
  | '*' => state.repeatLast 0 none
  | '+' => state.repeatLast 1 none
  | '\x7b' => { state with mode := .count [] }
  | '.' => state.pushClass .notLineFeed
  | '^' => state.push .start
  | '$' => state.push .finish
  | c => state.pushClass (.literal c)

/-- Reads the character behind a backslash. -/
def readEscaped (state : ReadingState) (c : Char) : ReadingState :=
  match c with
  | 's' => state.pushClass .blank
  | 'd' => state.pushClass .digit
  | 'p' => { state with mode := .property [] }
  | c => state.pushClass (.literal c)

/-- Reads what stands behind an opening parenthesis. -/
def readGroupHead (state : ReadingState) (text : List Char) (c : Char) : ReadingState :=
  if text = ['?'] ∧ c = ':' then state.openGroup none
  else
    match text, c with
    | '?' :: 'P' :: '<' :: name, '>' => state.openGroup (some (String.ofList name))
    | _, _ => { state with mode := .groupHead (text ++ [c]) }

/-- Reads a character of a class in brackets. -/
def readInClass (state : ReadingState) (items : ClassState) (c : Char) : ReadingState :=
  match c with
  | ']' =>
    let all := if items.dash then ClassItem.range '-' '-' :: items.items else items.items
    state.pushClass (.items items.negated all.reverse)
  | '\\' => { state with mode := .escapedInClass items }
  | c => { state with mode := .inClass (readClassChar items c) }
where
  /-- Adds a character to a class, or ends a range with it. -/
  readClassChar (items : ClassState) (c : Char) : ClassState :=
    match items.last, items.dash with
    | some first, true =>
      { items with items := .range first c :: items.items, last := none, dash := false }
    | some _, false =>
      if c = '-' then { items with dash := true }
      else { items with items := .range c c :: items.items, last := some c }
    | none, _ => { items with items := .range c c :: items.items, last := some c }

/-- Reads the character behind a backslash in a class. -/
def readEscapedInClass (state : ReadingState) (items : ClassState) (c : Char) : ReadingState :=
  let add (item : ClassItem) : ReadingState :=
    { state with mode := .inClass { items with items := item :: items.items, last := none } }
  match c with
  | 's' => add .blank
  | 'S' => add .notBlank
  | c => add (.range c c)

/-- Reads a count of repetitions. -/
def readCount (state : ReadingState) (text : List Char) (c : Char) : ReadingState :=
  if c = '\x7d' then
    let (least, rest) := text.span Char.isDigit
    match readRadix? 10 least, rest with
    | some n, [] => state.repeatLast n (some n)
    | some n, ',' :: most =>
      match readRadix? 10 most with
      | some m => state.repeatLast n (some m)
      | none => state.fail
    | _, _ => state.fail
  else { state with mode := .count (text ++ [c]) }

/-- Reads the name of a property, of which letters are the only one. -/
def readProperty (state : ReadingState) (text : List Char) (c : Char) : ReadingState :=
  if c = '\x7d' then
    if text = ['\x7b', 'L'] then state.pushClass .letter else state.fail
  else { state with mode := .property (text ++ [c]) }

/-- Reads a character. -/
def read (state : ReadingState) (c : Char) : ReadingState :=
  match state.mode with
  | .plain => state.readPlain c
  | .escaped => state.readEscaped c
  | .property text => state.readProperty text c
  | .groupHead text => state.readGroupHead text c
  | .classHead =>
    if c = '^' then { state with mode := .inClass { negated := true } } else state.readInClass {} c
  | .inClass items => state.readInClass items c
  | .escapedInClass items => state.readEscapedInClass items c
  | .count text => state.readCount text c

/-- The pattern that has been read, if nothing is left open. -/
def result? (state : ReadingState) : Option Pattern :=
  if state.failed ∨ state.mode ≠ .plain ∨ state.outer ≠ [] then none
  else some state.inner.pattern

end ReadingState

/-- The pattern that a text stands for. -/
def readPattern? (text : List Char) : Option Pattern :=
  (text.foldl ReadingState.read {}).result?

/-- Whether a character has a meaning of its own in pattern texts. -/
def isSpecial (c : Char) : Bool :=
  "\\.+*?()|[]\x7b\x7d^$#&-~".toList.contains c

/-- The pattern text that only matches the given text. -/
def escapeText (text : List Char) : List Char :=
  text.flatMap fun c => if isSpecial c then ['\\', c] else [c]

end SequenceNotation.Pattern
