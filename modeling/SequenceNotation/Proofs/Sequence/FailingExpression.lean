import Mathlib.Data.List.Induction
import SequenceNotation.Proofs.Sequence.Consultation

/-!
# Expressions that fail

An expression without a result, or with an undefined one, leaves every kind its own value.  So a run in which the
expression fails at every emission inserts the same texts and stops at the same places as the run of the sequence
that has no expression: both keep the same record, and the stop expression sees no difference.
-/

namespace SequenceNotation

open SequenceNotation.Script SequenceNotation.Notation

namespace Sequence

/-! ### Runs -/

/-- The emissions at indices one after the other. -/
def emissionsFrom (sequence : Sequence) : List Nat → SequenceState → List Emission
  | [], _ => []
  | index :: rest, state =>
    let (emission, state) := (sequence.emit state index).value
    emission :: sequence.emissionsFrom rest state

/-- The emissions of a run from the beginning. -/
def emissions (sequence : Sequence) (indices : List Nat) : List Emission :=
  sequence.emissionsFrom indices sequence.initial

theorem emissions_concat (sequence : Sequence) (history : List Nat) (index : Nat) :
    sequence.emissions (history ++ [index]) =
      sequence.emissions history ++ [(sequence.emit (sequence.after history) index).value.1] := by
  have hfrom (state : SequenceState) : sequence.emissionsFrom (history ++ [index]) state =
      sequence.emissionsFrom history state ++
        [(sequence.emit (history.foldl (fun state index => (sequence.emit state index).value.2) state)
          index).value.1] := by
    induction history generalizing state with
    | nil => rfl
    | cons first rest ih => exact congrArg _ (ih _)
  exact hfrom sequence.initial

/-! ### Sequences with another expression -/

/-- The sequence of a line whose modifiers are changed. -/
def prepareWith (change : Modifiers → Modifiers) (context : Context) (line : String) :
    Except AlphabetFault Sequence :=
  let classified := classify context.segments context.settings.start line
  let modifiers := (Modifiers.extract context.segments context.settings classified.remainder).value
  (ofStart context (change modifiers) line classified.start).value

/-- A sequence with another expression. -/
def withExpression (expression : String) (sequence : Sequence) : Sequence :=
  { sequence with
    modifiers := { sequence.modifiers with expression }
    hooks := { sequence.hooks with expression := trimmed expression } }

theorem of_withExpression (context : Context) (kind : SequenceKind) (modifiers : Modifiers) (start : Value)
    (generator : Generator) (expression : String) :
    of context kind { modifiers with expression } start generator =
      (of context kind modifiers start generator).withExpression expression := by
  -- the record holds nothing of the expression
  have hinitial : (context.hooks { modifiers with expression }).initialValues { modifiers with expression } start =
      (context.hooks modifiers).initialValues modifiers start := by
    unfold Hooks.initialValues
    rfl
  unfold of
  dsimp only
  rw [hinitial]
  rfl

theorem ofSelected_withExpression (context : Context) (modifiers : Modifiers) (expression : String) :
    ofSelected context { modifiers with expression } =
      (ofSelected context modifiers).withExpression expression := by
  have hfirst : (context.hooks { modifiers with expression }).selection 0 =
      (context.hooks modifiers).selection 0 := by
    unfold Hooks.selection
    rfl
  unfold ofSelected
  rw [hfirst]
  exact of_withExpression ..

/-- The expression reaches the hooks and nothing else of what is prepared. -/
theorem ofStart_withExpression (context : Context) (modifiers : Modifiers) (line expression : String)
    (start : Start) :
    (ofStart context { modifiers with expression } line start).value =
      (ofStart context modifiers line start).value.map (withExpression expression) := by
  cases start with
  | alpha word =>
    dsimp only [ofStart, ofAlpha]
    cases Alphabet.ofText context.settings.alphabet with
    | error fault => rfl
    | ok alphabet =>
      cases h : alphabet.spells word <;> simp only [h]
      · exact congrArg Except.ok (ofSelected_withExpression ..)
      · exact congrArg Except.ok (of_withExpression ..)
  | textSelected => exact congrArg Except.ok (ofSelected_withExpression ..)
  | predefined selector =>
    have hoptions : SearchOptions.ofModifiers { modifiers with expression } =
        SearchOptions.ofModifiers modifiers := rfl
    simp only [ofStart, ofSelector, hoptions]
    cases selectList? context.settings.lists selector (SearchOptions.ofModifiers modifiers) <;>
      exact congrArg Except.ok (of_withExpression ..)
  | _ => exact congrArg Except.ok (of_withExpression ..)

theorem prepareWith_expression (context : Context) (line expression : String) :
    prepareWith (fun modifiers => { modifiers with expression }) context line =
      (prepare context line).value.map (withExpression expression) :=
  ofStart_withExpression ..

/-! ### Emissions at which the expression fails -/

/-- Whether the expression has no defined value with a record. -/
def Hooks.failsAt (hooks : Hooks) (seen : PlaceholderValues) : Bool :=
  match evaluate hooks.budget (substitute hooks.expression seen) with
  | .ok value => value.isUndefined
  | .error _ => true

theorem Hooks.revise_of_failsAt {hooks : Hooks} {seen : PlaceholderValues} (h : hooks.failsAt seen = true) :
    (hooks.revise seen).value = none ∨ (hooks.revise seen).value = some .undefined := by
  unfold failsAt at h
  unfold revise
  split
  · exact .inl rfl
  · dsimp only
    cases hresult : evaluate hooks.budget (substitute hooks.expression seen) with
    | ok value =>
      rw [hresult] at h
      cases value with
      | undefined => exact .inr rfl
      | _ => cases h
    | error fault => exact .inl rfl

/-- No kind takes an undefined result in place of its own value. -/
theorem Generator.select_undefined {generator : Generator} {budget : Budget} {made : Σ α : Type, Producer α}
    (h : generator.producer? budget = some made) (own : made.1) :
    (made.2.select own .undefined).value = own := by
  cases generator <;> cases h <;> rfl

/-- The own value is settled where the expression fails. -/
theorem Producer.settle_of_failsAt {α : Type} {producer : Producer α}
    (hselect : ∀ own, (producer.select own .undefined).value = own) {hooks : Hooks} {values : PlaceholderValues}
    {own : α} (h : hooks.failsAt (values.setCurrent (producer.shown own)) = true) :
    (producer.settle hooks values own).value = own := by
  dsimp only [settle, Logged.value_bind]
  rcases hooks.revise_of_failsAt h with hrevise | hrevise
  · rw [hrevise]
    rfl
  · rw [hrevise]
    exact hselect own

theorem Producer.settle_without_expression {α : Type} (producer : Producer α) {hooks : Hooks}
    (hexpression : hooks.expression = "") (values : PlaceholderValues) (own : α) :
    (producer.settle hooks values own).value = own := by
  unfold settle Hooks.revise
  rw [if_pos hexpression]
  rfl

/-- An emission at which the expression fails is the one without an expression, and leaves the same record. -/
theorem Producer.emit_of_failsAt {α : Type} {producer : Producer α}
    (hselect : ∀ own, (producer.select own .undefined).value = own) {hooks : Hooks} {state : SequenceState}
    {index : Nat} (h : ∀ seen, .revision seen ∈
      (producer.emitBy hooks.watched (hooks.begin state.values index) state index).asked → hooks.failsAt seen = true) :
    (producer.emit hooks state index).value =
      (producer.emit { hooks with expression := "" } state index).value := by
  have hbegin : Hooks.begin { hooks with expression := "" } state.values index = hooks.begin state.values index := rfl
  cases hown : producer.own? state.emitted index (hooks.begin state.values index) with
  | none =>
    dsimp only [emit]
    rw [hbegin, hown]
  | some own =>
    have hfails := h _ (by rw [producer.emitBy_watched hown]; exact .head _)
    have hsettle : (producer.settle { hooks with expression := "" } (hooks.begin state.values index) own.value).value =
        own.value :=
      producer.settle_without_expression rfl _ _
    dsimp only [emit]
    rw [hbegin, hown]
    simp only [Logged.value_bind, Logged.value_pure, Producer.settle_of_failsAt hselect hfails, hsettle]
    rfl

theorem Generator.emit_of_failsAt {generator : Generator} {hooks : Hooks} {state : SequenceState} {index : Nat}
    (h : ∀ seen, .revision seen ∈ (generator.watch hooks state index).asked → hooks.failsAt seen = true) :
    (generator.emit hooks state index).value =
      (generator.emit { hooks with expression := "" } state index).value := by
  rw [emit_eq, emit_eq]
  unfold watch at h
  cases hproducer : generator.producer? hooks.budget with
  | none => rfl
  | some made =>
    rw [hproducer] at h
    exact Producer.emit_of_failsAt (select_undefined hproducer) h

/-! ### Runs in which the expression fails -/

/-- If the expression of a line has no defined value at any emission of a run, the line without the expression gives
a sequence whose run has the same emissions: texts and ends. -/
theorem emissions_of_failing_expression {context : Context} {line : String} {sequence : Sequence}
    (h : (prepare context line).value = .ok sequence) {indices : List Nat}
    (hfails : ∀ before index rest, indices = before ++ index :: rest → ∀ seen,
      .revision seen ∈ (sequence.watch before index).asked → sequence.hooks.failsAt seen = true) :
    ∃ bare, prepareWith (fun modifiers => { modifiers with expression := "" }) context line = .ok bare ∧
      sequence.emissions indices = bare.emissions indices := by
  have hrun : sequence.emissions indices = (sequence.withExpression "").emissions indices ∧
      sequence.after indices = (sequence.withExpression "").after indices := by
    -- the induction carries the record along with the emissions
    induction indices using List.reverseRecOn with
    | nil => exact ⟨rfl, rfl⟩
    | append_singleton history index ih =>
      obtain ⟨hemissions, hafter⟩ := ih fun before index' rest heq => by
        apply hfails before index' (rest ++ [index])
        simp [heq]
      have hemit : (sequence.emit (sequence.after history) index).value =
          ((sequence.withExpression "").emit ((sequence.withExpression "").after history) index).value := by
        rw [← hafter]
        exact Generator.emit_of_failsAt (hfails history index [] rfl)
      rw [emissions_concat, emissions_concat, after_concat, after_concat, hemit, hemissions]
      exact ⟨rfl, rfl⟩
  refine ⟨sequence.withExpression "", ?_, hrun.1⟩
  rw [prepareWith_expression, h]
  rfl

/-- A function that is not there fails with every record. -/
theorem emissions_of_failing_expression_call : ∃ sequence bare,
    (prepare plainContext "! ::nope()").value = .ok sequence ∧
    prepareWith (fun modifiers => { modifiers with expression := "" }) plainContext "! ::nope()" = .ok bare ∧
    (∀ seen, sequence.hooks.failsAt seen = true) ∧ sequence.emissions [2, 0, 7] = bare.emissions [2, 0, 7] ∧
    bare.emissions [2, 0, 7] = [⟨"c", false⟩, ⟨"a", false⟩, ⟨"", true⟩] := by
  have hread : (prepare plainContext "! ::nope()").value.toOption.map (fun sequence =>
      (sequence.hooks.expression, sequence.hooks.budget, (sequence.withExpression "").emissions [2, 0, 7])) =
      some ("nope()", plainContext.budget, [⟨"c", false⟩, ⟨"a", false⟩, ⟨"", true⟩]) := by
    decide +kernel
  obtain ⟨sequence, h, hvalues⟩ := exists_prepared hread
  simp only [Prod.mk.injEq] at hvalues
  obtain ⟨hexpression, hbudget, hemissions⟩ := hvalues
  have hfails (seen : PlaceholderValues) : sequence.hooks.failsAt seen = true := by
    have hsource : substitute "nope()" seen = "nope()" := rfl
    unfold Hooks.failsAt
    rw [hexpression, hbudget, hsource]
    decide +kernel
  obtain ⟨bare, hbare, hrun⟩ := @emissions_of_failing_expression _ _ _ h [2, 0, 7] fun _ _ _ _ seen _ => hfails seen
  have hwithout : bare = sequence.withExpression "" := by
    rw [prepareWith_expression, h] at hbare
    exact (Except.ok.inj hbare).symm
  refine ⟨sequence, bare, h, hbare, hfails, hrun, ?_⟩
  rw [hwithout, hemissions]

end Sequence

end SequenceNotation
