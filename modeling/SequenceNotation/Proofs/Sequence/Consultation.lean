import SequenceNotation.Proofs.Sequence.History

/-!
# What the expressions see

An emission consults its hooks twice: about a revision of the kind's own value, and about the end.  Both times
they see the record of placeholders.  To speak of these records the emission is watched: it runs with hooks that
note what they are asked.  Whatever was emitted before, at whatever indices, the record holds the index and the
selected text of this emission, the own value of the kind, what the emission before has settled, and what was
there from the beginning.
-/

namespace SequenceNotation

open SequenceNotation.Number SequenceNotation.Script SequenceNotation.Notation

namespace Sequence

/-! ### Emissions that are watched -/

/-- What hooks are asked, with the record that they see. -/
inductive Question where
  /-- What the own value is revised to. -/
  | revision (seen : PlaceholderValues)
  /-- Whether the sequence stops. -/
  | stop (seen : PlaceholderValues)

/-- A value with the questions that were asked on the way to it. -/
structure Watched (α : Type) where
  value : α
  asked : List Question := []

instance : Monad Watched where
  pure value := { value }
  bind first next :=
    { value := (next first.value).value, asked := first.asked ++ (next first.value).asked }

/-- Who answers the questions of an emission, and takes what it computes by itself. -/
structure Respondent (m : Type → Type) where
  revise : PlaceholderValues → m (Option Value)
  shouldStop : PlaceholderValues → Nat → m Bool
  take : {α : Type} → Logged α → m α

/-- The hooks answer and keep the log. -/
def Hooks.respondent (hooks : Hooks) : Respondent Logged where
  revise := hooks.revise
  shouldStop := hooks.shouldStop
  take logged := logged

/-- The hooks answer, and every question is noted. -/
def Hooks.watched (hooks : Hooks) : Respondent Watched where
  revise seen := { value := (hooks.revise seen).value, asked := [.revision seen] }
  shouldStop seen index := { value := (hooks.shouldStop seen index).value, asked := [.stop seen] }
  take logged := { value := logged.value }

/-- What is computed without a question is only taken. -/
theorem Hooks.take_bind {α β : Type} (hooks : Hooks) (logged : Logged α) (next : α → Watched β) :
    (hooks.watched.take logged >>= next) = next logged.value :=
  rfl

namespace Producer

variable {α : Type} (producer : Producer α)

/-- The value that is settled, with the answers of any respondent. -/
def settleBy {m : Type → Type} [Monad m] (respondent : Respondent m) (values : PlaceholderValues) (own : α) :
    m α := do
  match ← respondent.revise (values.setCurrent (producer.shown own)) with
  | some result => respondent.take (producer.select own result)
  | none => return own

/-- An emission with the answers of any respondent, given the record at its beginning. -/
def emitBy {m : Type → Type} [Monad m] (respondent : Respondent m) (values : PlaceholderValues)
    (state : SequenceState) (index : Nat) : m (Emission × SequenceState) :=
  match producer.own? state.emitted index values with
  | none => pure (Emission.stopped, state)
  | some own => do
    let own ← respondent.take own
    let final ← producer.settleBy respondent values own
    let values := producer.finalValues values own final
    let stop ← respondent.shouldStop values index
    return ({ text := producer.text final, stop }, { values, emitted := state.emitted + 1 })

/-- An emission is one with the answers of its hooks. -/
theorem emitBy_respondent (hooks : Hooks) (state : SequenceState) (index : Nat) :
    producer.emitBy hooks.respondent (hooks.begin state.values index) state index =
      producer.emit hooks state index :=
  rfl

/-- Watching changes no value, and the expression sees the own value. -/
theorem settleBy_watched (hooks : Hooks) (values : PlaceholderValues) (own : α) :
    producer.settleBy hooks.watched values own =
      { value := (producer.settle hooks values own).value
        asked := [.revision (values.setCurrent (producer.shown own))] } := by
  have hvalue (answer : Option Value) (asked : List Question) :
      ({ value := answer, asked : Watched (Option Value) } >>= fun
        | some result => hooks.watched.take (producer.select own result)
        | none => pure own) =
      { value := (match answer with
          | some result => producer.select own result
          | none => pure own : Logged α).value
        asked := asked ++ [] } := by
    cases answer <;> rfl
  exact hvalue (hooks.revise (values.setCurrent (producer.shown own))).value _

/-- With a value the expression is asked first, and then the stop expression sees what is settled. -/
theorem emitBy_watched {hooks : Hooks} {state : SequenceState} {index : Nat} {own : Logged α}
    (hown : producer.own? state.emitted index (hooks.begin state.values index) = some own) :
    let values := hooks.begin state.values index
    let final := (producer.settle hooks values own.value).value
    producer.emitBy hooks.watched values state index =
      { value := (producer.emit hooks state index).value
        asked := [.revision (values.setCurrent (producer.shown own.value)),
          .stop (producer.finalValues values own.value final)] } := by
  dsimp only [emitBy, emit]
  rw [hown]
  dsimp only
  rw [Hooks.take_bind, settleBy_watched]
  rfl

/-- Without a value nothing is asked. -/
theorem emitBy_watched_none {hooks : Hooks} {state : SequenceState} {index : Nat}
    (hown : producer.own? state.emitted index (hooks.begin state.values index) = none) :
    producer.emitBy hooks.watched (hooks.begin state.values index) state index =
      { value := (producer.emit hooks state index).value } := by
  dsimp only [emitBy, emit]
  rw [hown]
  rfl

end Producer

/-! ### The kinds as one -/

/-- How a generator makes its values, if it has any way. -/
def Generator.producer? (budget : Budget) : Generator → Option (Σ α : Type, Producer α)
  | number sequence => some ⟨_, sequence.producer⟩
  | word sequence => some ⟨_, sequence.producer⟩
  | date sequence => some ⟨_, sequence.producer⟩
  | items sequence => some ⟨_, sequence.producer⟩
  | selected sequence => some ⟨_, sequence.producer⟩
  | expression sequence => some ⟨_, sequence.producer budget⟩
  | function sequence => some ⟨_, sequence.producer budget⟩
  | nothing => none

theorem Generator.emit_eq (generator : Generator) (hooks : Hooks) (state : SequenceState) (index : Nat) :
    generator.emit hooks state index =
      match generator.producer? hooks.budget with
      | some ⟨_, producer⟩ => producer.emit hooks state index
      | none => pure (Emission.stopped, state) := by
  cases generator <;> rfl

/-- The two values of an emission that has one: the kind's own as expressions see it, and the one that is
settled. -/
structure Call where
  own : Value
  settled : Value

def Producer.call? {α : Type} (producer : Producer α) (hooks : Hooks) (state : SequenceState) (index : Nat) :
    Option Call :=
  let values := hooks.begin state.values index
  (producer.own? state.emitted index values).map fun own =>
    { own := producer.shown own.value
      settled := producer.settled (producer.settle hooks values own.value).value }

namespace Generator

variable (generator : Generator)

/-- The values of an emission; none if there can be no value. -/
def call? (hooks : Hooks) (state : SequenceState) (index : Nat) : Option Call :=
  (generator.producer? hooks.budget).bind fun made => made.2.call? hooks state index

/-- The emission at an index, watched. -/
def watch (hooks : Hooks) (state : SequenceState) (index : Nat) : Watched (Emission × SequenceState) :=
  match generator.producer? hooks.budget with
  | some ⟨_, producer⟩ => producer.emitBy hooks.watched (hooks.begin state.values index) state index
  | none => pure (Emission.stopped, state)

theorem isNone_call? (hooks : Hooks) (state : SequenceState) (index : Nat) :
    (generator.call? hooks state index).isNone = generator.isBarren := by
  cases generator with
  | items sequence => exact (Option.isNone_map.trans Option.isNone_map).trans (cycle?_isNone _ _ _)
  | function sequence => exact Option.isNone_map.trans Option.isNone_map
  | _ => rfl

/-- Watching changes nothing. -/
theorem value_watch (hooks : Hooks) (state : SequenceState) (index : Nat) :
    (generator.watch hooks state index).value = (generator.emit hooks state index).value := by
  rw [emit_eq, watch]
  cases generator.producer? hooks.budget with
  | none => rfl
  | some made =>
    obtain ⟨_, producer⟩ := made
    cases hown : producer.own? state.emitted index (hooks.begin state.values index) with
    | none => exact congrArg Watched.value (producer.emitBy_watched_none hown)
    | some own => exact congrArg Watched.value (producer.emitBy_watched hown)

/-- What an emission with a value asks, and the record that it leaves. -/
theorem emission_of_call {hooks : Hooks} {state : SequenceState} {index : Nat} {call : Call}
    (hcall : generator.call? hooks state index = some call) :
    let seen := (hooks.begin state.values index).setCurrent call.own
    (generator.watch hooks state index).asked = [.revision seen, .stop (seen.setAfterExpression call.settled)] ∧
      (generator.emit hooks state index).value.2.values = seen.setAfterExpression call.settled := by
  obtain ⟨⟨_, producer⟩, hproducer, hcall⟩ := Option.bind_eq_some_iff.1 hcall
  obtain ⟨own, hown, rfl⟩ := Option.map_eq_some_iff.1 hcall
  rw [emit_eq, watch, hproducer]
  refine ⟨congrArg Watched.asked (producer.emitBy_watched hown), ?_⟩
  dsimp only [Producer.emit]
  rw [hown]
  rfl

end Generator

/-! ### Runs -/

/-- The values of the emission at an index after a history. -/
def call? (sequence : Sequence) (history : List Nat) (index : Nat) : Option Call :=
  sequence.generator.call? sequence.hooks (sequence.after history) index

/-- The emission at an index after a history, watched. -/
def watch (sequence : Sequence) (history : List Nat) (index : Nat) : Watched (Emission × SequenceState) :=
  sequence.generator.watch sequence.hooks (sequence.after history) index

/-- The value that the last emission of a history has settled; undefined without one. -/
def lastSettled (sequence : Sequence) (history : List Nat) : Value :=
  match history.getLast? with
  | none => .undefined
  | some last => ((sequence.call? history.dropLast last).map Call.settled).getD .undefined

theorem after_concat (sequence : Sequence) (history : List Nat) (index : Nat) :
    sequence.after (history ++ [index]) = (sequence.emit (sequence.after history) index).value.2 := by
  simp [after]

theorem exists_call {sequence : Sequence} (hvalues : sequence.generator.isBarren = false) (history : List Nat)
    (index : Nat) : ∃ call, sequence.call? history index = some call := by
  have hnone := sequence.generator.isNone_call? sequence.hooks (sequence.after history) index
  rw [hvalues] at hnone
  exact Option.isSome_iff_exists.1 (by simpa [call?] using hnone)

/-- The record keeps the value that was settled last. -/
theorem settled_after {sequence : Sequence} (hvalues : sequence.generator.isBarren = false)
    (hinitial : sequence.initial.settled = .undefined) (history : List Nat) :
    (sequence.after history).settled = sequence.lastSettled history := by
  rcases List.eq_nil_or_concat history with rfl | ⟨before, last, rfl⟩
  · exact hinitial
  · -- no induction is needed: the last emission alone writes the record
    obtain ⟨call, hcall⟩ := exists_call hvalues before last
    have hrecord := (sequence.generator.emission_of_call hcall).2
    rw [List.concat_eq_append, after_concat, SequenceState.settled, emit, hrecord]
    simp [lastSettled, hcall, PlaceholderValues.setAfterExpression]

/-- What is read off a prepared sequence is that of a sequence. -/
theorem exists_prepared {context : Context} {line : String} {α : Type} {view : Sequence → α} {values : α}
    (h : (prepare context line).value.toOption.map view = some values) :
    ∃ sequence, (prepare context line).value = .ok sequence ∧ view sequence = values := by
  obtain ⟨sequence, hsequence, hvalues⟩ := Option.map_eq_some_iff.1 h
  exact ⟨sequence, toOption_eq_some_iff.1 hsequence, hvalues⟩

/-- Every prepared sequence begins with the record of its modifiers and a start. -/
theorem exists_eq_of {context : Context} {modifiers : Modifiers} {line : String} {start : Start}
    {sequence : Sequence} (h : (ofStart context modifiers line start).value = .ok sequence) :
    ∃ kind value generator, sequence = of context kind modifiers value generator := by
  cases isMade_of_start h <;> exact ⟨_, _, _, rfl⟩

/-- What the placeholders stand for while the expression runs, given the kind's own value. -/
def meaning (context : Context) (sequence : Sequence) (history : List Nat) (index : Nat) (own : Value) :
    Placeholder → Value
  | .current => own
  | .selected => .text ((context.selections[index]?).getD "")
  | .start => sequence.initial.values.start
  | .previous => sequence.lastSettled history
  | .afterExpression => .undefined
  | .step => .number sequence.modifiers.step
  | .selections => .number (Double.ofNat context.selections.length)
  | .index => .number (Double.ofNat index)

/-- In every run of a sequence that has values, at any indices in any order, the expression and the stop expression
see the same placeholders but for the value after the expression: that is undefined at first, and then the value
that this emission settles.  The previous value is the one that the emission before has settled; the start, the
step and the count of selections are those of the beginning. -/
theorem placeholders_in_runs {context : Context} {line : String} {sequence : Sequence}
    (h : (prepare context line).value = .ok sequence) (hvalues : sequence.generator.isBarren = false)
    (history : List Nat) (index : Nat) :
    (sequence.watch history index).value = (sequence.emit (sequence.after history) index).value ∧
    ∃ call before after, sequence.call? history index = some call ∧
      (sequence.watch history index).asked = [.revision before, .stop after] ∧
      (∀ placeholder, before.lookup placeholder = sequence.meaning context history index call.own placeholder) ∧
      ∀ placeholder, after.lookup placeholder =
        if placeholder = .afterExpression then call.settled else before.lookup placeholder := by
  obtain ⟨_, start, _, hsequence⟩ := exists_eq_of h
  have hinitial : sequence.initial.values = sequence.hooks.initialValues sequence.modifiers start := by
    rw [hsequence]
    rfl
  have hselections : sequence.hooks.selections = context.selections := by
    rw [hsequence]
    rfl
  obtain ⟨call, hcall⟩ := exists_call hvalues history index
  have hprevious : (sequence.after history).settled = sequence.lastSettled history :=
    settled_after hvalues (congrArg PlaceholderValues.afterExpression hinitial) history
  have horigin := sequence.sameOrigin_after history
  refine ⟨sequence.generator.value_watch _ _ _, call, _, _, hcall,
    (sequence.generator.emission_of_call hcall).1, fun placeholder => ?_, fun placeholder => ?_⟩
  · -- three placeholders are read from what the beginning fixed, and the previous value from the last emission
    cases placeholder with
    | current => rfl
    | selected => exact congrArg (fun texts : List String => Value.text ((texts[index]?).getD "")) hselections
    | start => exact horigin.start
    | previous => exact hprevious
    | afterExpression => rfl
    | step => exact horigin.step.trans (congrArg PlaceholderValues.step hinitial)
    | selections =>
      have hcount : (sequence.after history).values.selections = context.selections.length := by
        rw [horigin.selections, hinitial, ← hselections]
        rfl
      exact congrArg (fun n => Value.number (Double.ofNat n)) hcount
    | index => rfl
  · cases placeholder <;> rfl

/-- The third emission of a sequence that counts from the previous value: the selected text `b` is its own value, and
the emission before has settled `2`. -/
theorem placeholders_in_runs_counting : ∃ sequence, (prepare plainContext "! ::p+1").value = .ok sequence ∧
    sequence.generator.isBarren = false ∧ (sequence.lastSettled [2, 0]).toText = "2" ∧
    (sequence.call? [2, 0] 1).map (fun call => (call.own.toText, call.settled.toText)) = some ("b", "3") ∧
    ∃ call before after, sequence.call? [2, 0] 1 = some call ∧
      (sequence.watch [2, 0] 1).asked = [.revision before, .stop after] ∧
      before.lookup .previous = sequence.lastSettled [2, 0] ∧ after.lookup .afterExpression = call.settled := by
  have hread : (prepare plainContext "! ::p+1").value.toOption.map (fun sequence =>
      (sequence.generator.isBarren, (sequence.lastSettled [2, 0]).toText,
        (sequence.call? [2, 0] 1).map fun call => (call.own.toText, call.settled.toText))) =
      some (false, "2", some ("b", "3")) := by
    decide +kernel
  obtain ⟨sequence, h, hvalues⟩ := exists_prepared hread
  simp only [Prod.mk.injEq] at hvalues
  obtain ⟨hbarren, hsettled, hcall⟩ := hvalues
  obtain ⟨-, call, before, after, hvalue, hasked, hbefore, hafter⟩ := placeholders_in_runs h hbarren [2, 0] 1
  exact ⟨sequence, h, hbarren, hsettled, hcall, call, before, after, hvalue, hasked, hbefore .previous,
    hafter .afterExpression⟩

end Sequence

end SequenceNotation
