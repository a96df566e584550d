import SequenceNotation.Proofs.Sequence.FailingExpression
import SequenceNotation.Proofs.Sequence.Reread

/-!
# The expression that is the current value

The expression `_` has the value that the literal of the own value is read as.  What is settled then has the literal
of the own value: neither the stop expression nor a later emission sees a difference.  So the sequence stops where
it stops without the expression, and inserts the texts of what the literals are read as.  These are the same texts,
except for own values that are written in another way than that.
-/

namespace SequenceNotation

open SequenceNotation.Number SequenceNotation.Script SequenceNotation.Notation

namespace Sequence

/-! ### Records that no source tells apart -/

theorem lookup_setCurrent (values : PlaceholderValues) (value : Value) {placeholder : Placeholder}
    (h : placeholder ≠ .current) : (values.setCurrent value).lookup placeholder = values.lookup placeholder := by
  cases placeholder with
  | current => exact absurd rfl h
  | _ => rfl

theorem lookup_setAfterExpression (values : PlaceholderValues) (value : Value) {placeholder : Placeholder}
    (h : placeholder ≠ .afterExpression) :
    (values.setAfterExpression value).lookup placeholder = values.lookup placeholder := by
  cases placeholder with
  | afterExpression => exact absurd rfl h
  | _ => rfl

/-- Records with the same literals and the same selected text. -/
structure Alike (values values' : PlaceholderValues) : Prop where
  lookup : ∀ placeholder, SameLiteral (values.lookup placeholder) (values'.lookup placeholder)
  selected : values.selected = values'.selected

namespace Alike

variable {values values' : PlaceholderValues}

theorem setCurrent (h : Alike values values') (value : Value) :
    Alike (values.setCurrent value) (values'.setCurrent value) where
  lookup placeholder := by
    by_cases hcurrent : placeholder = .current
    · subst hcurrent
      exact SameLiteral.refl value
    · rw [lookup_setCurrent _ _ hcurrent, lookup_setCurrent _ _ hcurrent]
      exact h.lookup placeholder
  selected := h.selected

theorem setAfterExpression (h : Alike values values') {value value' : Value} (hvalue : SameLiteral value value') :
    Alike (values.setAfterExpression value) (values'.setAfterExpression value') where
  lookup placeholder := by
    by_cases hafter : placeholder = .afterExpression
    · subst hafter
      exact hvalue
    · rw [lookup_setAfterExpression _ _ hafter, lookup_setAfterExpression _ _ hafter]
      exact h.lookup placeholder
  selected := h.selected

theorem substitute_eq (h : Alike values values') (source : String) :
    substitute source values = substitute source values' :=
  congrArg String.ofList (substituteFrom_congr fun placeholder _ => h.lookup placeholder)

theorem shouldStop_eq (h : Alike values values') (hooks : Hooks) (index : Nat) :
    hooks.shouldStop values index = hooks.shouldStop values' index := by
  unfold Hooks.shouldStop
  rw [h.substitute_eq]

theorem valueAt_eq (h : Alike values values') (sequence : ExpressionSequence) (budget : Budget) (index : Nat) :
    sequence.valueAt budget index values = sequence.valueAt budget index values' := by
  unfold ExpressionSequence.valueAt ExpressionSequence.result
  rw [← h.selected, (h.setCurrent (.text values.selected)).substitute_eq]

/-- Every kind finds the same own value with both records. -/
theorem own?_eq (h : Alike values values') {generator : Generator} {budget : Budget} {made : Σ α : Type, Producer α}
    (hproducer : generator.producer? budget = some made) (emitted index : Nat) :
    made.2.own? emitted index values = made.2.own? emitted index values' := by
  cases generator with
  | selected sequence =>
    cases hproducer
    exact congrArg (fun text => some (pure text)) h.selected
  | expression sequence =>
    cases hproducer
    exact congrArg some (h.valueAt_eq sequence budget index)
  | _ => cases hproducer <;> rfl

end Alike

/-- States whose next emissions see records that no source tells apart. -/
structure SameCourse (state state' : SequenceState) : Prop where
  emitted : state.emitted = state'.emitted
  origin : SameOrigin state.values state'.values
  settled : SameLiteral state.settled state'.settled

theorem SameCourse.alike_begin {state state' : SequenceState} (h : SameCourse state state') (hooks : Hooks)
    (index : Nat) : Alike (hooks.begin state.values index) (hooks.begin state'.values index) where
  lookup placeholder := by
    intro memberFollows
    cases placeholder with
    | previous => exact h.settled memberFollows
    | start => exact congrArg (literalOf · memberFollows) h.origin.start
    | step => exact congrArg (literalOf · memberFollows) h.origin.step
    | selections => exact congrArg (fun n => literalOf (.number (Double.ofNat n)) memberFollows) h.origin.selections
    | _ => rfl
  selected := rfl

/-! ### Emissions -/

/-- The expression `_` settles what the literal of the own value selects. -/
theorem Producer.settle_current {α : Type} (producer : Producer α) {hooks : Hooks} (hexpression : hooks.expression = "_")
    (hfuel : 2 ≤ hooks.budget.fuel) (values : PlaceholderValues) (own : α) :
    (producer.settle hooks values own).value = producer.fromLiteral own := by
  have hlookup : (values.setCurrent (producer.shown own)).lookup .current = producer.shown own := rfl
  have hrevise : (hooks.revise (values.setCurrent (producer.shown own))).value = some (reread (producer.shown own)) := by
    unfold Hooks.revise
    rw [hexpression, if_neg (by decide), @substitute_placeholder "_" '_' rfl .current rfl, hlookup]
    dsimp only
    rw [evaluate_literalOf _ hfuel]
    rfl
  unfold settle fromLiteral
  rw [Logged.value_bind, hrevise]

/-- An emission with the expression `_` stops where the one without it stops, and leaves a state from which the
run goes on alike.  Its text is that of what the literal selects, and stays if the own value is written in the same
way. -/
theorem Producer.emit_current {α : Type} {producer : Producer α}
    (hsettled : ∀ own, SameLiteral (producer.settled (producer.fromLiteral own)) (producer.settled own))
    {hooks : Hooks} (hexpression : hooks.expression = "") (hfuel : 2 ≤ hooks.budget.fuel)
    {state state' : SequenceState} (h : SameCourse state' state) {index : Nat}
    (hown : producer.own? state'.emitted index (hooks.begin state'.values index) =
      producer.own? state.emitted index (hooks.begin state.values index)) :
    let bare := (producer.emit hooks state index).value
    let revised := (producer.emit { hooks with expression := "_" } state' index).value
    revised.1.stop = bare.1.stop ∧ SameCourse revised.2 bare.2 ∧
      revised.1.text = (producer.rereadText? state.emitted index (hooks.begin state.values index)).getD "" ∧
      ((∀ own, producer.own? state.emitted index (hooks.begin state.values index) = some own →
        producer.text (producer.fromLiteral own.value) = producer.text own.value) → revised.1.text = bare.1.text) := by
  have hbegin : Hooks.begin { hooks with expression := "_" } state'.values index = hooks.begin state'.values index := rfl
  dsimp only [emit, rereadText?]
  rw [hbegin, hown]
  cases hvalue : producer.own? state.emitted index (hooks.begin state.values index) with
  | none => exact ⟨rfl, h, rfl, fun _ => rfl⟩
  | some own =>
    have hrevised := @settle_current _ producer { hooks with expression := "_" } rfl hfuel (hooks.begin state'.values index)
      own.value
    have hbare := producer.settle_without_expression hexpression (hooks.begin state.values index) own.value
    simp only [Logged.value_bind, Logged.value_pure, hrevised, hbare]
    -- what is settled differs, but not in its literal
    have halike := ((h.alike_begin hooks index).setCurrent (producer.shown own.value)).setAfterExpression
      (hsettled own.value)
    refine ⟨?_, ?_, rfl, ?_⟩
    · exact congrArg Logged.value (halike.shouldStop_eq hooks index)
    · exact ⟨congrArg (· + 1) h.emitted, ⟨h.origin.start, h.origin.step, h.origin.selections⟩, hsettled own.value⟩
    · intro htext
      exact htext own rfl

theorem Generator.emit_current (generator : Generator) {hooks : Hooks} (hexpression : hooks.expression = "")
    (hfuel : 2 ≤ hooks.budget.fuel) {state state' : SequenceState} (h : SameCourse state' state) (index : Nat) :
    let bare := (generator.emit hooks state index).value
    let revised := (generator.emit { hooks with expression := "_" } state' index).value
    revised.1.stop = bare.1.stop ∧ SameCourse revised.2 bare.2 ∧
      revised.1.text =
        (generator.rereadText? hooks.budget state.emitted index (hooks.begin state.values index)).getD "" ∧
      (generator.keepsText hooks.budget state.emitted index (hooks.begin state.values index) = true →
        revised.1.text = bare.1.text) := by
  dsimp only
  rw [emit_eq, emit_eq, rereadText?]
  dsimp only
  cases hproducer : generator.producer? hooks.budget with
  | none => exact ⟨rfl, h, rfl, fun _ => rfl⟩
  | some made =>
    have hown : made.2.own? state'.emitted index (hooks.begin state'.values index) =
        made.2.own? state.emitted index (hooks.begin state.values index) := by
      rw [h.emitted]
      exact (h.alike_begin hooks index).own?_eq hproducer _ _
    obtain ⟨hstop, hcourse, htext, hsame⟩ :=
      Producer.emit_current (sameLiteral_fromLiteral hproducer) hexpression hfuel h hown
    exact ⟨hstop, hcourse, htext, fun hkeeps => hsame fun own hown => text_of_keepsText hproducer hkeeps hown⟩

/-! ### Runs -/

/-- Whether the own value of the emission at an index after a history is written as the one that its literal is
read as. -/
def keepsText (sequence : Sequence) (history : List Nat) (index : Nat) : Bool :=
  let state := sequence.after history
  sequence.generator.keepsText sequence.hooks.budget state.emitted index (sequence.hooks.begin state.values index)

/-- The text of what the literal of this own value selects; none without a value. -/
def rereadText? (sequence : Sequence) (history : List Nat) (index : Nat) : Option String :=
  let state := sequence.after history
  sequence.generator.rereadText? sequence.hooks.budget state.emitted index (sequence.hooks.begin state.values index)

theorem emit_withExpression_current (sequence : Sequence) (state : SequenceState) (index : Nat) :
    (sequence.withExpression "_").emit state index =
      sequence.generator.emit { sequence.hooks with expression := "_" } state index := by
  have htrimmed : trimmed "_" = "_" := by decide
  have hhooks : (sequence.withExpression "_").hooks = { sequence.hooks with expression := "_" } := by
    unfold withExpression
    rw [htrimmed]
  exact congrArg (fun hooks => sequence.generator.emit hooks state index) hhooks

/-- Both runs go on from states in which they see the same. -/
theorem sameCourse_after {sequence : Sequence} (hexpression : sequence.hooks.expression = "")
    (hfuel : 2 ≤ sequence.hooks.budget.fuel) (history : List Nat) :
    SameCourse ((sequence.withExpression "_").after history) (sequence.after history) := by
  induction history using List.reverseRecOn with
  | nil => exact ⟨rfl, ⟨rfl, rfl, rfl⟩, SameLiteral.refl _⟩
  | append_singleton history index ih =>
    -- the records need not be equal, and no source tells them apart
    rw [after_concat, after_concat, emit_withExpression_current]
    exact (sequence.generator.emit_current hexpression hfuel ih index).2.1

/-- Whether the expression `_` turns the first text of a line without an expression into another one. -/
def ChangesFirst (context : Context) (line text text' : String) : Prop :=
  ∃ sequence revised, (prepare context line).value = .ok sequence ∧ sequence.hooks.expression = "" ∧
    prepareWith (fun modifiers => { modifiers with expression := "_" }) context line = .ok revised ∧
    (sequence.emit sequence.initial 0).value.1.text = text ∧ (revised.emit revised.initial 0).value.1.text = text'

theorem changesFirst_of {context : Context} {line text text' : String}
    (h : (prepare context line).value.toOption.map (fun sequence =>
      (sequence.hooks.expression, (sequence.emit sequence.initial 0).value.1.text,
        ((sequence.withExpression "_").emit (sequence.withExpression "_").initial 0).value.1.text)) =
      some ("", text, text')) : ChangesFirst context line text text' := by
  obtain ⟨sequence, hprepare, hvalues⟩ := exists_prepared h
  simp only [Prod.mk.injEq] at hvalues
  obtain ⟨hexpression, hbare, hrevised⟩ := hvalues
  refine ⟨sequence, sequence.withExpression "_", hprepare, hexpression, ?_, hbare, hrevised⟩
  rw [prepareWith_expression, hprepare]
  rfl

/-- Digits are selected in the evening, the step is negative, and numbers have one place. -/
def eveningContext : Context where
  settings := { step := -Double.ofNat 1, numberFormat := ".1f", dateFormat := "yyyy-MM-dd HH" }
  selections := ["007"]
  segments :=
    { entries :=
        [{ name := "boundary", text := [], pattern := .one .blank },
         { name := "date_prefix", text := [], pattern := .one (.literal '%') },
         { name := "date_body", text := [], pattern := .empty },
         { name := "expr_prefix", text := [], pattern := .one (.literal '=') },
         { name := "expr_body", text := [],
           pattern := .named "bare" (.repeated (.one .notLineFeed) 1 none) },
         { name := "decimal_body", text := [],
           pattern := .sequence (.named "sign" (.one (.literal '-'))) (.named "int" (.one .digit)) }] }
  now := { plainContext.now with hour := 21 }
  seed := 0

end Sequence

end SequenceNotation
