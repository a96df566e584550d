import SequenceNotation.Proofs.Sequence.Collecting
import SequenceNotation.Proofs.Sequence.Reread

/-!
# Dates that expressions return

Expressions see dates as texts, and a text that they return selects the date that it stands for.  A text of the
program's own is read back unless its year has more than four digits.  So an expression that returns one of the
dates it sees selects this date, and one that returns a date behind the year 9999 leaves the own date in its place.
-/

namespace SequenceNotation

open SequenceNotation.Script SequenceNotation.Notation SequenceNotation.Calendar

namespace Sequence

/-- A prepared sequence of dates begins at a date, and its expressions see the text of this date as the start. -/
theorem start_of_dates {context : Context} {modifiers : Modifiers} {line : String} {start : Start}
    {sequence : Sequence} (h : (ofStart context modifiers line start).value = .ok sequence) {dates : DateSequence}
    (hdates : sequence.generator = .date dates) : sequence.initial.values.start = .text (isoText dates.start) := by
  cases isMade_of_start h with
  | date start =>
    cases hdates
    rfl
  | _ => cases hdates

namespace DateSequence

variable (dates : DateSequence) (hooks : Hooks) (state : SequenceState) (index : Nat)

/-- The record that the expression sees. -/
def seenAt : PlaceholderValues :=
  (hooks.begin state.values index).setCurrent (.text (isoText (dates.dateAt index)))

/-- The date that an emission settles and inserts. -/
def settledAt : DateTime :=
  (dates.producer.settle hooks (hooks.begin state.values index) (dates.dateAt index)).value

/-- Whether the expression returns the text of a date. -/
def Returns (moment : DateTime) : Prop :=
  (hooks.revise (dates.seenAt hooks state index)).value = some (.text (isoText moment))

/-- An emission writes the date that it settles, and the next ones see its text as the previous value. -/
theorem emit_eq_settledAt :
    let emitted := ((Generator.date dates).emit hooks state index).value
    emitted.1.text = formatDate (dates.settledAt hooks state index) dates.template dates.language ∧
      emitted.2.settled = .text (isoText (dates.settledAt hooks state index)) :=
  ⟨rfl, rfl⟩

variable {dates hooks state index} {moment : DateTime}

theorem settledAt_of_returns (h : dates.Returns hooks state index moment) :
    dates.settledAt hooks state index =
      if moment.date.year ≤ 9999 then { date := moment.date } else dates.dateAt index := by
  have hrevise : (hooks.revise ((hooks.begin state.values index).setCurrent
      (dates.producer.shown (dates.dateAt index)))).value = some (.text (isoText moment)) := h
  unfold settledAt Producer.settle
  rw [Logged.value_bind, hrevise]
  exact select_isoText (dates.dateAt index) moment

/-- A placeholder alone returns the date whose text it stands for. -/
theorem returns_of_placeholder (letter : Char) (placeholder : Placeholder)
    (hexpression : hooks.expression.toList = [letter]) (hletter : Placeholder.ofChar? letter = some placeholder)
    (hvalue : (dates.seenAt hooks state index).lookup placeholder = .text (isoText moment))
    (hfuel : 2 ≤ hooks.budget.fuel) : dates.Returns hooks state index moment := by
  have hne : hooks.expression ≠ "" := by
    intro hempty
    rw [hempty] at hexpression
    cases hexpression
  unfold Returns Hooks.revise
  rw [if_neg hne, substitute_placeholder hexpression hletter, hvalue]
  dsimp only
  rw [evaluate_literalOf _ hfuel, reread_text_none (numeric?_isoText moment)]
  rfl

end DateSequence

/-- The text of a date reads as midnight of this date if and only if its year has no more than four digits.  In a
run of a sequence of dates, an expression that returns the text of such a date selects this date, and one that
returns that of a later date has no effect.  The letters of the current, the start and the previous date return
these. -/
theorem returned_date_selected_iff {context : Context} {line : String} {sequence : Sequence}
    (h : (prepare context line).value = .ok sequence) {dates : DateSequence}
    (hdates : sequence.generator = .date dates) (history : List Nat) (index : Nat) :
    let hooks := sequence.hooks
    let state := sequence.after history
    (∀ moment : DateTime, readDate? (isoText moment) = some { date := moment.date } ↔ moment.date.year ≤ 9999) ∧
    (sequence.emit state index).value.1.text =
      formatDate (dates.settledAt hooks state index) dates.template dates.language ∧
    (∀ moment, dates.Returns hooks state index moment →
      dates.settledAt hooks state index =
        if moment.date.year ≤ 9999 then { date := moment.date } else dates.dateAt index) ∧
    (hooks.expression = "_" → dates.Returns hooks state index (dates.dateAt index)) ∧
    (hooks.expression = "c" → dates.Returns hooks state index dates.start) ∧
    ∀ before last, history = before ++ [last] → hooks.expression = "p" →
      dates.Returns hooks state index (dates.settledAt hooks (sequence.after before) last) := by
  obtain ⟨-, hhooks, -⟩ := prepared_of_start h
  have hfuel : 2 ≤ sequence.hooks.budget.fuel := by
    rw [hhooks]
    show 2 ≤ defaultFuel
    decide
  dsimp only
  refine ⟨fun moment => ?_, ?_, fun moment => DateSequence.settledAt_of_returns, fun hcurrent => ?_, fun hstart => ?_,
    fun before last hhistory hprevious => ?_⟩
  · rw [readDate?_isoText]
    split <;> simp [*]
  · unfold emit
    rw [hdates]
    exact (dates.emit_eq_settledAt _ _ _).1
  · exact DateSequence.returns_of_placeholder '_' .current (by rw [hcurrent]; rfl) rfl rfl hfuel
  · -- no emission changes the start in the record
    have hvalue : (sequence.after history).values.start = .text (isoText dates.start) :=
      (sequence.sameOrigin_after history).start.trans (start_of_dates h hdates)
    exact DateSequence.returns_of_placeholder 'c' .start (by rw [hstart]; rfl) rfl hvalue hfuel
  · -- the last emission alone says what the previous date is
    have hvalue : (sequence.after history).settled =
        .text (isoText (dates.settledAt sequence.hooks (sequence.after before) last)) := by
      rw [hhistory, after_concat, emit, hdates]
      exact (dates.emit_eq_settledAt _ _ _).2
    exact DateSequence.returns_of_placeholder 'p' .previous (by rw [hprevious]; rfl) rfl hvalue hfuel

/-- The sequence of dates that a generator is. -/
def Generator.dates? : Generator → Option DateSequence
  | date sequence => some sequence
  | _ => none

/-- What is read off a prepared sequence of dates is that of a sequence of dates. -/
theorem exists_dates {context : Context} {line : String} {α : Type} {view : Sequence → DateSequence → α} {values : α}
    (h : ((prepare context line).value.toOption.bind fun sequence =>
      sequence.generator.dates?.map (view sequence)) = some values) :
    ∃ sequence dates, (prepare context line).value = .ok sequence ∧ sequence.generator = .date dates ∧
      view sequence dates = values := by
  obtain ⟨sequence, hsequence, h⟩ := Option.bind_eq_some_iff.1 h
  obtain ⟨dates, hdates, hvalues⟩ := Option.map_eq_some_iff.1 h
  refine ⟨sequence, dates, toOption_eq_some_iff.1 hsequence, ?_, hvalues⟩
  cases hgenerator : sequence.generator with
  | date dates' =>
    rw [hgenerator] at hdates
    cases hdates
    rfl
  | _ =>
    rw [hgenerator] at hdates
    cases hdates

/-- Dates that begin in the evening of a day. -/
def eveningOf (date : Date) : Context :=
  { plainContext with
    segments :=
      { entries :=
          { name := "date_prefix", text := [], pattern := .one (.literal '%') } ::
          { name := "date_body", text := [], pattern := .empty } :: plainContext.segments.entries }
    now := { date, hour := 21 } }

/-- On the first day of the year 10000 the previous date is that of the day before, of which the time of the day is
lost. -/
theorem returned_date_selected_last_day : ∃ sequence dates,
    (prepare (eveningOf ⟨9999, 12, 31, by decide⟩) "% ::p").value = .ok sequence ∧
    sequence.generator = .date dates ∧ sequence.hooks.expression = "p" ∧
    dates.settledAt sequence.hooks (sequence.after []) 0 = { date := ⟨9999, 12, 31, by decide⟩, hour := 21 } ∧
    dates.settledAt sequence.hooks (sequence.after [0]) 1 = { date := ⟨9999, 12, 31, by decide⟩ } := by
  have hread : ((prepare (eveningOf ⟨9999, 12, 31, by decide⟩) "% ::p").value.toOption.bind fun sequence =>
      sequence.generator.dates?.map fun dates =>
        (sequence.hooks.expression, dates.settledAt sequence.hooks (sequence.after []) 0)) =
      some ("p", { date := ⟨9999, 12, 31, by decide⟩, hour := 21 }) := by
    decide +kernel
  obtain ⟨sequence, dates, h, hdates, hvalues⟩ := exists_dates hread
  obtain ⟨hexpression, hfirst⟩ := Prod.mk.inj hvalues
  obtain ⟨-, -, hselected, -, -, hprevious⟩ := returned_date_selected_iff h hdates [0] 1
  have hsecond := hselected _ (hprevious [] 0 rfl hexpression)
  rw [hfirst, if_pos (by decide)] at hsecond
  exact ⟨sequence, dates, h, hdates, hexpression, hfirst, hsecond⟩

/-- The first day of the year 10000 is not read back, and does not come back as the start either. -/
theorem start_of_five_digits_is_lost : ∃ sequence dates,
    (prepare (eveningOf ⟨10000, 1, 1, by decide⟩) "% ::c").value = .ok sequence ∧
    sequence.generator = .date dates ∧ sequence.hooks.expression = "c" ∧
    isoText dates.start = "10000-01-01" ∧ readDate? (isoText dates.start) = none ∧
    (sequence.emit (sequence.after [0]) 1).value.1.text = "10000-01-02" := by
  have hread : ((prepare (eveningOf ⟨10000, 1, 1, by decide⟩) "% ::c").value.toOption.bind fun sequence =>
      sequence.generator.dates?.map fun dates =>
        (sequence.hooks.expression, isoText dates.start, readDate? (isoText dates.start),
          (sequence.emit (sequence.after [0]) 1).value.1.text)) =
      some ("c", "10000-01-01", none, "10000-01-02") := by
    decide +kernel
  obtain ⟨sequence, dates, h, hdates, hvalues⟩ := exists_dates hread
  simp only [Prod.mk.injEq] at hvalues
  exact ⟨sequence, dates, h, hdates, hvalues⟩

end Sequence

end SequenceNotation
