import SequenceNotation.Sequence.Kind.Computed
import SequenceNotation.Sequence.Kind.Date
import SequenceNotation.Sequence.Kind.Number
import SequenceNotation.Sequence.Kind.Word

/-!
# Prepared sequences

A line, the settings and the selections make a sequence, which emits at any index.  Only an alphabet that
is none keeps a sequence from being made; everything else that does not fit is logged and has a plain
value in its place.
-/

namespace SequenceNotation.Sequence

open SequenceNotation.Script SequenceNotation.Notation SequenceNotation.Calendar

/-- What a sequence is made in. -/
structure Context where
  settings : Settings
  selections : List String
  segments : Segments
  /-- The present moment. -/
  now : DateTime
  /-- The seed of random draws. -/
  seed : Nat

namespace Context

/-- What each run of an expression may use up. -/
def budget (context : Context) : Budget :=
  { milliseconds := context.settings.timeoutMilliseconds }

def hooks (context : Context) (modifiers : Modifiers) : Hooks :=
  Hooks.ofModifiers modifiers context.selections context.budget

end Context

/-- What makes the values. -/
inductive Generator where
  | number (sequence : NumberSequence)
  | word (sequence : WordSequence)
  | date (sequence : DateSequence)
  | items (sequence : ItemSequence)
  | selected (sequence : SelectedText)
  | expression (sequence : ExpressionSequence)
  | function (sequence : FunctionSequence)
  | nothing

/-- Emits at an index. -/
def Generator.emit (hooks : Hooks) (state : SequenceState) (index : Nat) :
    Generator → Logged (Emission × SequenceState)
  | number sequence => sequence.producer.emit hooks state index
  | word sequence => sequence.producer.emit hooks state index
  | date sequence => sequence.producer.emit hooks state index
  | items sequence => sequence.producer.emit hooks state index
  | selected sequence => sequence.producer.emit hooks state index
  | expression sequence => (sequence.producer hooks.budget).emit hooks state index
  | function sequence => (sequence.producer hooks.budget).emit hooks state index
  | nothing => pure (Emission.stopped, state)

end SequenceNotation.Sequence

namespace SequenceNotation

open SequenceNotation.Script SequenceNotation.Notation SequenceNotation.Calendar

/-- A sequence, ready to emit. -/
structure Sequence where
  kind : SequenceKind
  modifiers : Modifiers
  hooks : Sequence.Hooks
  generator : Sequence.Generator
  /-- The state before the first emission. -/
  initial : Sequence.SequenceState

namespace Sequence

/-- A sequence of a kind with the value that its expressions see as the start. -/
def of (context : Context) (kind : SequenceKind) (modifiers : Modifiers) (start : Value)
    (generator : Generator) : Sequence :=
  let hooks := context.hooks modifiers
  { kind, modifiers, hooks, generator, initial := { values := hooks.initialValues modifiers start } }

/-- The padding of texts. -/
def padding (context : Context) (modifiers : Modifiers) : Option String :=
  pickFormat modifiers.format context.settings.stringFormat

/-- The format of numbers. -/
def numberFormat (context : Context) (modifiers : Modifiers) : Option String :=
  pickFormat modifiers.format context.settings.numberFormat

def ofNumber (context : Context) (modifiers : Modifiers) (start : DecimalStart) : Sequence :=
  of context (.decimal start.radix) modifiers (.number start.value)
    (.number
      { start
        folding := modifiers.folding
        format := numberFormat context modifiers
        showRadix := context.settings.radixPrefix
        seed := context.seed })

def ofWord (context : Context) (modifiers : Modifiers) (alphabet : Alphabet) (word : String) :
    Sequence :=
  of context .alpha modifiers (.text word)
    (.word
      { alphabet
        word
        folding := modifiers.folding
        capitalization := context.settings.alphaCapital
        padding := padding context modifiers })

def ofDate (context : Context) (modifiers : Modifiers) (start : DateStart) : Sequence :=
  let start := resolveStart start context.settings.century context.now
  of context .date modifiers (.text (isoText start))
    (.date
      { start
        unit := modifiers.dateUnit.getD context.settings.dateUnit
        folding := modifiers.folding
        template := (pickFormat modifiers.format context.settings.dateFormat).getD isoTemplate
        language := context.settings.language })

/-- Items that begin at a place counted from zero. -/
def ofItems (context : Context) (kind : SequenceKind) (modifiers : Modifiers)
    (items : List String) (place : Nat) : Sequence :=
  let sequence : ItemSequence :=
    { items
      offset := wrap64 place
      folding := modifiers.folding
      padding := padding context modifiers }
  of context kind modifiers (.text sequence.first) (.items sequence)

def ofSelected (context : Context) (modifiers : Modifiers) : Sequence :=
  let first := (context.hooks modifiers).selection 0
  of context .textSelected modifiers (.text first)
    (.selected { padding := padding context modifiers })

def ofExpression (context : Context) (modifiers : Modifiers) (source : String) : Sequence :=
  of context .expression modifiers (numberOrText context.settings.start)
    (.expression
      { source
        numberFormat := numberFormat context modifiers
        padding := padding context modifiers })

/-- The configured list that a selector chooses.  Without one there is nothing to emit. -/
def ofSelector (context : Context) (modifiers : Modifiers) (selector : ListSelector) :
    Logged Sequence :=
  let options := SearchOptions.ofModifiers modifiers
  match selectList? context.settings.lists selector options with
  | some (items, place) => pure (ofItems context .predefinedList modifiers items place)
  | none => do
    Logged.warn ("no configured list matches " ++ selector.recordText)
    return ofItems context .predefinedList modifiers [] 0

/-- The configured function of a number, compiled. -/
def compileFunction (context : Context) (number : Nat) : Logged (Option Callable) :=
  match if number = 0 then none else context.settings.functions[number - 1]? with
  | none => do
    Logged.warn ("no function number " ++ toString number ++ " is configured")
    return none
  | some source =>
    match Callable.compile context.budget source with
    | .ok callable => pure (some callable)
    | .error fault => do
      Logged.warn ("function " ++ toString number ++ " does not compile: " ++ fault.message)
      return none

def ofFunction (context : Context) (modifiers : Modifiers) (number : Option Nat)
    (startAt : Option Number.Double) : Logged Sequence := do
  let callable ← compileFunction context (number.getD context.settings.defaultFunction)
  let startAt := match startAt with
    | some n => .number n
    | none => numberOrText context.settings.start
  return of context .function modifiers startAt
    (.function
      { callable
        startAt
        folding := modifiers.folding
        numberFormat := numberFormat context modifiers
        padding := padding context modifiers })

/-- A word, if the alphabet spells it, and else the selected texts. -/
def ofAlpha (context : Context) (modifiers : Modifiers) (word : String) :
    Logged (Except AlphabetFault Sequence) :=
  match Alphabet.ofText context.settings.alphabet with
  | .error fault => pure (.error fault)
  | .ok alphabet =>
    if alphabet.spells word then pure (.ok (ofWord context modifiers alphabet word))
    else do
      Logged.debug ("'" ++ word ++ "' is not spelled by the alphabet, using the selected text")
      return .ok (ofSelected context modifiers)

/-- The sequence of a start.  `line` names the whole line in the log. -/
def ofStart (context : Context) (modifiers : Modifiers) (line : String) :
    Start → Logged (Except AlphabetFault Sequence)
  | .decimal start => pure (.ok (ofNumber context modifiers start))
  | .alpha word => ofAlpha context modifiers word
  | .date start => pure (.ok (ofDate context modifiers start))
  | .expression source => pure (.ok (ofExpression context modifiers source))
  | .ownList items position =>
    pure (.ok (ofItems context .ownList modifiers items (position - 1)))
  | .predefined selector => .ok <$> ofSelector context modifiers selector
  | .function number startAt => .ok <$> ofFunction context modifiers number startAt
  | .textSelected => pure (.ok (ofSelected context modifiers))
  | .invalid fault => do
    Logged.warn ("'" ++ line ++ "' is not a valid sequence: " ++ fault.message)
    return .ok (of context .invalid modifiers .undefined .nothing)

/-- The sequence of a line. -/
def prepare (context : Context) (line : String) : Logged (Except AlphabetFault Sequence) := do
  let classified := classify context.segments context.settings.start line
  let modifiers ← Modifiers.extract context.segments context.settings classified.remainder
  Logged.debug
    ("'" ++ line ++ "' classified as " ++ classified.start.kind.recordText ++ " with " ++
      modifiers.recordText)
  ofStart context modifiers line classified.start

/-- Emits at an index. -/
def emit (sequence : Sequence) (state : SequenceState) (index : Nat) :
    Logged (Emission × SequenceState) :=
  sequence.generator.emit sequence.hooks state index

/-- The texts from an index on up to the first stop, at most so many. -/
def emitFrom (sequence : Sequence) : (count index : Nat) → SequenceState →
    Logged (List String × SequenceState)
  | 0, _, state => pure ([], state)
  | count + 1, index, state => do
    let (emission, state) ← sequence.emit state index
    if emission.stop then return ([], state)
    else
      let (texts, state) ← sequence.emitFrom count (index + 1) state
      return (emission.text :: texts, state)

/-- The texts from the first index on up to the first stop, and no more than a cap. -/
def collect (sequence : Sequence) (state : SequenceState) (cap : Nat) :
    Logged (List String × SequenceState) := do
  let (texts, state) ← sequence.emitFrom cap 0 state
  if texts.length = cap then
    Logged.debug ("stopped at the cap of " ++ toString cap ++ " values")
  return (texts, state)

end Sequence

end SequenceNotation
