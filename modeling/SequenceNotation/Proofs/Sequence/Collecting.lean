import SequenceNotation.Sequence.Prepared

/-!
# One value for each selection

Without a stop expression a sequence goes on up to the last selection and no further, whatever its
expression does.  The exceptions are sequences that have nothing to emit: there is no list to choose items
from, no function to call, or no start.  What decides this is the start, not the index.
-/

namespace SequenceNotation

open SequenceNotation.Number SequenceNotation.Script SequenceNotation.Notation

namespace Sequence

/-! ### Emissions -/

theorem Hooks.value_shouldStop {hooks : Hooks} (hstop : hooks.stopExpression = "")
    (values : PlaceholderValues) (index : Nat) :
    (hooks.shouldStop values index).value = decide (hooks.selections.length ≤ index) := by
  unfold Hooks.shouldStop
  rw [if_pos hstop]
  rfl

/-- A kind stops where it has no value, and behind the last selection. -/
theorem Producer.stop_emit {α : Type} (producer : Producer α) {hooks : Hooks}
    (hstop : hooks.stopExpression = "") (state : SequenceState) (index : Nat) :
    (producer.emit hooks state index).value.1.stop =
      ((producer.own? state.emitted index (hooks.begin state.values index)).isNone ||
        decide (hooks.selections.length ≤ index)) := by
  dsimp only [Producer.emit]
  cases producer.own? state.emitted index (hooks.begin state.values index) with
  | none => rfl
  | some own => exact Hooks.value_shouldStop hstop _ index

/-- In a circle of items there is one at every distance. -/
theorem cycle?_isNone (items : List String) (offset : Int) (distance : Double) :
    (cycle? items offset distance).isNone = items.isEmpty := by
  unfold cycle?
  cases items with
  | nil => rfl
  | cons first others =>
    have hlength : (0 : Int) < ((first :: others).length : Int) := by simp
    have hplace := Int.emod_lt_of_pos (wrap64 (offset + distance.round.toInt64)) hlength
    have hnonneg := Int.emod_nonneg (wrap64 (offset + distance.round.toInt64)) (Int.ne_of_gt hlength)
    rw [List.isEmpty_cons, List.getElem?_eq_getElem (by omega)]
    rfl

/-- Whether there is no value at any index. -/
def Generator.isBarren : Generator → Bool
  | items sequence => sequence.items.isEmpty
  | function sequence => sequence.callable.isNone
  | nothing => true
  | _ => false

/-- Without a stop expression only a barren generator stops in front of the last selection. -/
theorem Generator.stop_emit (generator : Generator) {hooks : Hooks} (hstop : hooks.stopExpression = "")
    (state : SequenceState) (index : Nat) :
    (generator.emit hooks state index).value.1.stop =
      (generator.isBarren || decide (hooks.selections.length ≤ index)) := by
  cases generator with
  | number sequence => exact sequence.producer.stop_emit hstop state index
  | word sequence => exact sequence.producer.stop_emit hstop state index
  | date sequence => exact sequence.producer.stop_emit hstop state index
  | selected sequence => exact sequence.producer.stop_emit hstop state index
  | expression sequence => exact (sequence.producer hooks.budget).stop_emit hstop state index
  | nothing => rfl
  | items sequence =>
    have hown : (sequence.producer.own? state.emitted index (hooks.begin state.values index)).isNone =
        sequence.items.isEmpty :=
      (Option.isNone_map).trans (cycle?_isNone _ _ _)
    rw [isBarren, ← hown]
    exact sequence.producer.stop_emit hstop state index
  | function sequence =>
    have hown : ((sequence.producer hooks.budget).own? state.emitted index
        (hooks.begin state.values index)).isNone = sequence.callable.isNone := Option.isNone_map
    rw [isBarren, ← hown]
    exact (sequence.producer hooks.budget).stop_emit hstop state index

/-! ### Whole runs -/

/-- From an index on there are as many texts as there are selections left, and no more than the cap. -/
theorem length_emitFrom (sequence : Sequence) (hstop : sequence.hooks.stopExpression = "")
    (cap index : Nat) (state : SequenceState) :
    (sequence.emitFrom cap index state).value.1.length =
      if sequence.generator.isBarren then 0
      else min (sequence.hooks.selections.length - index) cap := by
  induction cap generalizing index state with
  | zero => simp [emitFrom]
  | succ cap ih =>
    have hemit := sequence.generator.stop_emit hstop state index
    dsimp only [emitFrom, emit, Logged.value_bind]
    generalize (sequence.generator.emit sequence.hooks state index).value = emitted at hemit ⊢
    obtain ⟨emission, after⟩ := emitted
    dsimp only at hemit ⊢
    cases hbarren : sequence.generator.isBarren with
    | true =>
      rw [hbarren, Bool.true_or] at hemit
      rw [hemit]
      rfl
    | false =>
      rw [hbarren, Bool.false_or] at hemit
      by_cases hleft : sequence.hooks.selections.length ≤ index
      · -- behind the last selection the run ends
        rw [hemit, decide_eq_true hleft, Nat.sub_eq_zero_of_le hleft, Nat.zero_min]
        rfl
      · have hrest := ih (index + 1) after
        rw [hbarren, if_neg Bool.false_ne_true] at hrest
        rw [hemit, decide_eq_false hleft, if_neg Bool.false_ne_true, if_neg Bool.false_ne_true]
        simp only [Logged.value_bind, Logged.value_pure, List.length_cons, hrest]
        omega

/-! ### Prepared sequences -/

/-- Whether a start leaves nothing to emit: an invalid one, a list without items, a selector that no
configured list answers to, and a function that is missing or cannot be compiled. -/
def hasNothingToEmit (context : Context) (modifiers : Modifiers) : Start → Bool
  | .ownList items _ => items.isEmpty
  | .predefined selector =>
    match selectList? context.settings.lists selector (SearchOptions.ofModifiers modifiers) with
    | some (items, _) => items.isEmpty
    | none => true
  | .function number _ =>
    (compileFunction context (number.getD context.settings.defaultFunction)).value.isNone
  | .invalid _ => true
  | _ => false

/-- What is prepared for a start has the hooks of the modifiers, and is barren if the start leaves nothing
to emit. -/
theorem prepared_of_start {context : Context} {modifiers : Modifiers} {line : String} {start : Start}
    {sequence : Sequence} (h : (ofStart context modifiers line start).value = .ok sequence) :
    sequence.modifiers = modifiers ∧ sequence.hooks = context.hooks modifiers ∧
      sequence.generator.isBarren = hasNothingToEmit context modifiers start := by
  cases start with
  | decimal start =>
    cases h
    exact ⟨rfl, rfl, rfl⟩
  | alpha word =>
    dsimp only [ofStart, ofAlpha] at h
    split at h
    · cases h
    · split at h <;> cases h <;> exact ⟨rfl, rfl, rfl⟩
  | date start =>
    cases h
    exact ⟨rfl, rfl, rfl⟩
  | expression source =>
    cases h
    exact ⟨rfl, rfl, rfl⟩
  | ownList items position =>
    cases h
    exact ⟨rfl, rfl, rfl⟩
  | predefined selector =>
    replace h : (ofSelector context modifiers selector).value = sequence := Except.ok.inj h
    subst h
    dsimp only [ofSelector, hasNothingToEmit]
    cases selectList? context.settings.lists selector (SearchOptions.ofModifiers modifiers) with
    | none => exact ⟨rfl, rfl, rfl⟩
    | some chosen => exact ⟨rfl, rfl, rfl⟩
  | function number startAt =>
    cases h
    exact ⟨rfl, rfl, rfl⟩
  | textSelected =>
    cases h
    exact ⟨rfl, rfl, rfl⟩
  | invalid fault =>
    cases h
    exact ⟨rfl, rfl, rfl⟩

/-- What a start is made into, one sequence for each kind. -/
inductive IsMade (context : Context) (modifiers : Modifiers) : Sequence → Prop
  | number (start : DecimalStart) : IsMade context modifiers (ofNumber context modifiers start)
  | word (alphabet : Alphabet) (word : String) : IsMade context modifiers (ofWord context modifiers alphabet word)
  | date (start : DateStart) : IsMade context modifiers (ofDate context modifiers start)
  | ownList (items : List String) (place : Nat) :
    IsMade context modifiers (ofItems context .ownList modifiers items place)
  | predefinedList (items : List String) (place : Nat) :
    IsMade context modifiers (ofItems context .predefinedList modifiers items place)
  | selected : IsMade context modifiers (ofSelected context modifiers)
  | expression (source : String) : IsMade context modifiers (ofExpression context modifiers source)
  | function (number : Option Nat) (startAt : Option Number.Double) :
    IsMade context modifiers (ofFunction context modifiers number startAt).value
  | invalid : IsMade context modifiers (of context .invalid modifiers .undefined .nothing)

theorem isMade_of_start {context : Context} {modifiers : Modifiers} {line : String} {start : Start}
    {sequence : Sequence} (h : (ofStart context modifiers line start).value = .ok sequence) :
    IsMade context modifiers sequence := by
  cases start with
  | decimal start =>
    cases h
    exact .number start
  | alpha word =>
    -- a word that the alphabet does not spell leaves the selected texts
    dsimp only [ofStart, ofAlpha] at h
    split at h
    · cases h
    · split at h <;> cases h
      · exact .word _ word
      · exact .selected
  | date start =>
    cases h
    exact .date start
  | expression source =>
    cases h
    exact .expression source
  | ownList items position =>
    cases h
    exact .ownList items _
  | predefined selector =>
    replace h : (ofSelector context modifiers selector).value = sequence := Except.ok.inj h
    subst h
    dsimp only [ofSelector]
    split
    · exact .predefinedList _ _
    · exact .predefinedList [] 0
  | function number startAt =>
    cases h
    exact .function number startAt
  | textSelected =>
    cases h
    exact .selected
  | invalid fault =>
    cases h
    exact .invalid

/-- Three selections, and a notation of blanks and expressions. -/
def plainContext : Context where
  settings := {}
  selections := ["a", "b", "c"]
  segments :=
    { entries :=
        [{ name := "boundary", text := [], pattern := .one .blank },
         { name := "modifier", text := [],
           pattern := .named "expression" (.sequence (.one (.literal ':')) (.one (.literal ':'))) }] }
  now := { date := (Calendar.Date.of? 2024 2 29).get (by decide) }
  seed := 0

end Sequence

end SequenceNotation
