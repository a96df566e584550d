import SequenceNotation.Proofs.Sequence.Collecting

/-!
# Emissions after different histories

Emissions can come at any indices and in any order.  What an earlier one leaves behind reaches a later one
through the previous value only, and there only through the literal that the sources put in its place.
The exception are numbers drawn at random, which count the emissions.
-/

namespace SequenceNotation

open SequenceNotation.Number SequenceNotation.Script SequenceNotation.Notation

/-! ### Equal numbers -/

namespace Number.Double

/-- Numbers that compare equal differ at most in the sign of zero. -/
theorem eq_or_zeros_of_equal {n m : Double} (hequal : n.equal m = true) :
    n = m ∨ ∃ negative negative' h, n = finite negative 0 h ∧ m = finite negative' 0 h := by
  cases n with
  | nan => cases m <;> cases hequal
  | infinite negative =>
    cases m with
    | infinite negative' => exact .inl (congrArg infinite (eq_of_beq hequal))
    | _ => cases hequal
  | finite negative units h =>
    cases m with
    | finite negative' units' h' =>
      have hsigned : signedUnits negative units = signedUnits negative' units' := eq_of_beq hequal
      have hsame : units = units' ∧ (negative = negative' ∨ units = 0) := by
        clear h h' hequal
        cases negative <;> cases negative' <;> simp [signedUnits] at hsigned ⊢ <;> omega
      obtain ⟨rfl, rfl | rfl⟩ := hsame
      · exact .inl rfl
      · exact .inr ⟨negative, negative', h, rfl, rfl⟩
    | _ => cases hequal

theorem isNan_eq_of_equal {n m : Double} (h : n.equal m = true) : n.isNan = m.isNan := by
  obtain rfl | ⟨_, _, _, rfl, rfl⟩ := eq_or_zeros_of_equal h <;> rfl

theorem less_eq_of_equal {n m : Double} (h : n.equal m = true) (other : Double) :
    n.less other = m.less other := by
  obtain rfl | ⟨negative, negative', _, rfl, rfl⟩ := eq_or_zeros_of_equal h
  · rfl
  · have hsigned : signedUnits negative 0 = signedUnits negative' 0 := by
      simp [signedUnits]
    cases other with
    | finite => simp only [less, hsigned]
    | _ => rfl

/-- The script's notation shows no sign of zero. -/
theorem toText_eq_of_equal {n m : Double} (h : n.equal m = true) : n.toText = m.toText := by
  obtain rfl | ⟨_, _, _, rfl, rfl⟩ := eq_or_zeros_of_equal h
  · rfl
  · simp only [toText, if_true]

end Number.Double

namespace Sequence

/-! ### Literals of values -/

/-- Whether two values have the same literals in a source. -/
def SameLiteral (value other : Value) : Prop :=
  ∀ memberFollows, literalOf value memberFollows = literalOf other memberFollows

theorem SameLiteral.refl (value : Value) : SameLiteral value value :=
  fun _ => rfl

/-- Values that are equal without conversion have the same literals.  The converse fails: a number and a
text that reads as this number share theirs. -/
theorem SameLiteral.of_strictEqual {value other : Value} (h : value.strictEqual other = true) :
    SameLiteral value other := by
  intro memberFollows
  cases value with
  | number n =>
    cases other with
    | number m =>
      replace h : n.equal m = true := h
      simp only [literalOf, numberLiteral, Double.isNan_eq_of_equal h, Double.less_eq_of_equal h,
        Double.toText_eq_of_equal h]
    | _ => cases h
  | boolean _ =>
    cases other with
    | boolean _ => rw [eq_of_beq h]
    | _ => cases h
  | text _ =>
    cases other with
    | text _ => rw [eq_of_beq h]
    | _ => cases h
  | _ =>
    -- all functions have the same text
    cases other <;> first | rfl | cases h

/-! ### Sources and records -/

/-- Whether a placeholder is replaced in a source from a place on. -/
def mentionsFrom (placeholder : Placeholder) : SubstitutionMode → List Char → Bool
  | _, [] => false
  | mode, c :: rest =>
    mode.placeholder? c rest.head? = some placeholder || mentionsFrom placeholder (mode.next c) rest

/-- Whether a placeholder is replaced in a source. -/
def mentions (placeholder : Placeholder) (source : String) : Bool :=
  mentionsFrom placeholder (.code none) source.toList

/-- A source depends on the literals of the placeholders that it mentions. -/
theorem substituteFrom_congr {values values' : PlaceholderValues} {mode : SubstitutionMode}
    {source : List Char}
    (h : ∀ placeholder, mentionsFrom placeholder mode source = true →
      SameLiteral (values.lookup placeholder) (values'.lookup placeholder)) :
    substituteFrom values mode source = substituteFrom values' mode source := by
  induction source generalizing mode with
  | nil => rfl
  | cons c rest ih =>
    have hhead : replacement values mode c rest.head? = replacement values' mode c rest.head? := by
      unfold replacement
      cases hfound : mode.placeholder? c rest.head? with
      | none => rfl
      | some placeholder => exact h placeholder (by simp [mentionsFrom, hfound]) _
    have hrest : substituteFrom values (mode.next c) rest = substituteFrom values' (mode.next c) rest :=
      ih fun placeholder hmentioned => h placeholder (by simp [mentionsFrom, hmentioned])
    rw [substituteFrom, substituteFrom, hhead, hrest]

/-- Records that differ at most in the previous value, which has the same literals in both if one of the
sources mentions it. -/
structure AgreeFor (sources : List String) (values values' : PlaceholderValues) : Prop where
  others : values' = { values with previous := values'.previous }
  previous : ∀ source ∈ sources, mentions .previous source = true →
    SameLiteral values.previous values'.previous

namespace AgreeFor

variable {sources : List String} {values values' : PlaceholderValues}

theorem setCurrent (h : AgreeFor sources values values') (value : Value) :
    AgreeFor sources (values.setCurrent value) (values'.setCurrent value) where
  others := by
    rw [h.others]
    rfl
  previous := h.previous

theorem setAfterExpression (h : AgreeFor sources values values') (value : Value) :
    AgreeFor sources (values.setAfterExpression value) (values'.setAfterExpression value) where
  others := by
    rw [h.others]
    rfl
  previous := h.previous

theorem selected_eq (h : AgreeFor sources values values') : values.selected = values'.selected := by
  rw [h.others]

theorem substitute_eq (h : AgreeFor sources values values') {source : String} (hsource : source ∈ sources) :
    substitute source values = substitute source values' := by
  refine congrArg String.ofList (substituteFrom_congr fun placeholder hmentioned => ?_)
  by_cases hprevious : placeholder = .previous
  · subst hprevious
    exact h.previous source hsource hmentioned
  · have hlookup : values'.lookup placeholder = values.lookup placeholder := by
      rw [h.others]
      cases placeholder with
      | previous => exact absurd rfl hprevious
      | _ => rfl
    rw [hlookup]
    exact SameLiteral.refl _

/-! ### Emissions with records that agree -/

variable {hooks : Hooks}

theorem revise_eq (h : AgreeFor sources values values') (hexpression : hooks.expression ∈ sources) :
    hooks.revise values = hooks.revise values' := by
  unfold Hooks.revise
  rw [h.substitute_eq hexpression]

theorem shouldStop_eq (h : AgreeFor sources values values') (hstop : hooks.stopExpression ∈ sources)
    (index : Nat) : hooks.shouldStop values index = hooks.shouldStop values' index := by
  unfold Hooks.shouldStop
  rw [h.substitute_eq hstop]

theorem valueAt_eq (h : AgreeFor sources values values') {sequence : ExpressionSequence}
    (hsource : sequence.source ∈ sources) (budget : Budget) (index : Nat) :
    sequence.valueAt budget index values = sequence.valueAt budget index values' := by
  unfold ExpressionSequence.valueAt ExpressionSequence.result
  rw [← h.selected_eq, (h.setCurrent (.text values.selected)).substitute_eq hsource]

/-- A kind that has the same own value with both records emits the same with both. -/
theorem emit_eq {α : Type} {producer : Producer α} {state state' : SequenceState} {index : Nat}
    (h : AgreeFor sources (hooks.begin state.values index) (hooks.begin state'.values index))
    (hexpression : hooks.expression ∈ sources) (hstop : hooks.stopExpression ∈ sources)
    (hown : producer.own? state.emitted index (hooks.begin state.values index) =
      producer.own? state'.emitted index (hooks.begin state'.values index)) :
    (producer.emit hooks state index).value.1 = (producer.emit hooks state' index).value.1 := by
  dsimp only [Producer.emit]
  rw [← hown]
  cases producer.own? state.emitted index (hooks.begin state.values index) with
  | none => rfl
  | some own =>
    have hsettle : producer.settle hooks (hooks.begin state.values index) own.value =
        producer.settle hooks (hooks.begin state'.values index) own.value := by
      unfold Producer.settle
      rw [(h.setCurrent _).revise_eq hexpression]
    have hfinal (final : α) :=
      ((h.setCurrent (producer.shown own.value)).setAfterExpression
        (producer.settled final)).shouldStop_eq hstop index
    simp only [Logged.value_bind, Logged.value_pure, hsettle, Producer.finalValues, hfinal]

end AgreeFor

/-- The sources of a generator. -/
def Generator.sources : Generator → List String
  | expression sequence => [sequence.source]
  | _ => []

/-- Whether the values are drawn at random. -/
def Generator.isDrawn : Generator → Bool
  | number sequence => sequence.start.random.isSome
  | _ => false

/-- Unless values are drawn, an emission depends on what the sources see of the record. -/
theorem Generator.emit_congr {generator : Generator} (hdrawn : generator.isDrawn = false) {hooks : Hooks}
    {state state' : SequenceState} {index : Nat}
    (h : AgreeFor (hooks.expression :: hooks.stopExpression :: generator.sources)
      (hooks.begin state.values index) (hooks.begin state'.values index)) :
    (generator.emit hooks state index).value.1 = (generator.emit hooks state' index).value.1 := by
  have hexpression : hooks.expression ∈ hooks.expression :: hooks.stopExpression :: generator.sources := by
    simp
  have hstop : hooks.stopExpression ∈ hooks.expression :: hooks.stopExpression :: generator.sources := by
    simp
  cases generator with
  | number sequence =>
    have hrandom : sequence.start.random = none := by simpa [isDrawn] using hdrawn
    refine h.emit_eq hexpression hstop ?_
    simp only [NumberSequence.producer, NumberSequence.valueAt, hrandom]
  | word sequence => exact h.emit_eq hexpression hstop rfl
  | date sequence => exact h.emit_eq hexpression hstop rfl
  | items sequence => exact h.emit_eq hexpression hstop rfl
  | selected sequence =>
    refine h.emit_eq hexpression hstop ?_
    simp only [SelectedText.producer, h.selected_eq]
  | expression sequence =>
    have hsource : sequence.source ∈
        hooks.expression :: hooks.stopExpression :: (expression sequence).sources := by
      simp [Generator.sources]
    refine h.emit_eq hexpression hstop ?_
    simp only [ExpressionSequence.producer, h.valueAt_eq hsource]
  | function sequence => exact h.emit_eq hexpression hstop rfl
  | nothing => rfl

/-! ### Histories -/

/-- Records of the same sequence: they have the start, the step and the count of selections in common. -/
structure SameOrigin (values values' : PlaceholderValues) : Prop where
  start : values.start = values'.start
  step : values.step = values'.step
  selections : values.selections = values'.selections

/-- At the beginning of an emission records of the same sequence differ in the previous value only. -/
theorem SameOrigin.agreeFor_begin {sources : List String} {values values' : PlaceholderValues}
    (h : SameOrigin values values')
    (hsettled : ∀ source ∈ sources, mentions .previous source = true →
      SameLiteral values.afterExpression values'.afterExpression) (hooks : Hooks) (index : Nat) :
    AgreeFor sources (hooks.begin values index) (hooks.begin values' index) where
  others := by
    simp only [Hooks.begin, PlaceholderValues.advance, h.start, h.step, h.selections]
  previous := hsettled

/-- No emission changes what the records of a sequence have in common. -/
theorem Generator.sameOrigin_emit (generator : Generator) (hooks : Hooks) (state : SequenceState)
    (index : Nat) : SameOrigin (generator.emit hooks state index).value.2.values state.values := by
  have hproducer {α : Type} (producer : Producer α) :
      SameOrigin (producer.emit hooks state index).value.2.values state.values := by
    dsimp only [Producer.emit]
    cases producer.own? state.emitted index (hooks.begin state.values index) <;> exact ⟨rfl, rfl, rfl⟩
  cases generator with
  | nothing => exact ⟨rfl, rfl, rfl⟩
  | _ => exact hproducer _

/-- The state after emissions at the indices of a history. -/
def after (sequence : Sequence) (history : List Nat) : SequenceState :=
  history.foldl (fun state index => (sequence.emit state index).value.2) sequence.initial

/-- The value that was settled last; undefined at the beginning. -/
def SequenceState.settled (state : SequenceState) : Value :=
  state.values.afterExpression

theorem sameOrigin_after (sequence : Sequence) (history : List Nat) :
    SameOrigin (sequence.after history).values sequence.initial.values := by
  have hrun (state : SequenceState) (hstate : SameOrigin state.values sequence.initial.values) :
      SameOrigin (history.foldl (fun state index => (sequence.emit state index).value.2) state).values
        sequence.initial.values := by
    induction history generalizing state with
    | nil => exact hstate
    | cons index history ih =>
      have hemit := sequence.generator.sameOrigin_emit sequence.hooks state index
      exact ih _ ⟨hemit.start.trans hstate.start, hemit.step.trans hstate.step,
        hemit.selections.trans hstate.selections⟩
  exact hrun _ ⟨rfl, rfl, rfl⟩

/-- Everything that is evaluated at an emission: the expression, the stop expression and, if the line
starts with one, the expression of the start. -/
def sources (sequence : Sequence) : List String :=
  sequence.hooks.expression :: sequence.hooks.stopExpression :: sequence.generator.sources

/-- Whether the numbers are drawn at random. -/
def isDrawn (sequence : Sequence) : Bool :=
  sequence.generator.isDrawn

/-! ### Seeds -/

/-- A generator with another seed. -/
def Generator.withSeed (seed : Nat) : Generator → Generator
  | number sequence => number { sequence with seed }
  | other => other

/-- A sequence with another seed. -/
def withSeed (seed : Nat) (sequence : Sequence) : Sequence :=
  { sequence with generator := sequence.generator.withSeed seed }

/-- A seed reaches draws only. -/
theorem Generator.emit_withSeed {generator : Generator} (hdrawn : generator.isDrawn = false) (seed : Nat)
    (hooks : Hooks) (state : SequenceState) (index : Nat) :
    (generator.withSeed seed).emit hooks state index = generator.emit hooks state index := by
  cases generator with
  | number sequence =>
    have hrandom : sequence.start.random = none := by simpa [isDrawn] using hdrawn
    have hproducer : NumberSequence.producer { sequence with seed } = sequence.producer := by
      simp only [NumberSequence.producer, NumberSequence.valueAt, hrandom]
      rfl
    simp only [withSeed, emit, hproducer]
  | _ => rfl

/-- The seed enters what is prepared in one place. -/
theorem ofStart_withSeed (context : Context) (seed : Nat) (modifiers : Modifiers) (line : String)
    (start : Start) :
    (ofStart { context with seed } modifiers line start).value =
      (ofStart context modifiers line start).value.map (withSeed seed) := by
  cases start with
  | alpha word =>
    dsimp only [ofStart, ofAlpha]
    cases Alphabet.ofText context.settings.alphabet with
    | error fault => rfl
    | ok alphabet => cases h : alphabet.spells word <;> simp [h] <;> rfl
  | predefined selector =>
    simp only [ofStart, ofSelector]
    cases selectList? context.settings.lists selector (SearchOptions.ofModifiers modifiers) <;> rfl
  | _ => rfl

theorem prepare_withSeed (context : Context) (seed : Nat) (line : String) :
    (prepare { context with seed } line).value = (prepare context line).value.map (withSeed seed) := by
  simp only [prepare, Logged.value_bind]
  exact ofStart_withSeed ..

/-! ### Two sequences of a line -/

/-- Two histories of one sequence lead to the same emissions if what they settled last has the same
literals, or is not mentioned. -/
theorem emission_congr {sequence : Sequence} (hdrawn : sequence.isDrawn = false) {history history' : List Nat}
    (hsettled : ∀ source ∈ sequence.sources, mentions .previous source = true →
      SameLiteral (sequence.after history).settled (sequence.after history').settled) (index : Nat) :
    (sequence.emit (sequence.after history) index).value.1 =
      (sequence.emit (sequence.after history') index).value.1 := by
  have horigin := sequence.sameOrigin_after history
  have horigin' := sequence.sameOrigin_after history'
  have hsame : SameOrigin (sequence.after history).values (sequence.after history').values :=
    ⟨horigin.start.trans horigin'.start.symm, horigin.step.trans horigin'.step.symm,
      horigin.selections.trans horigin'.selections.symm⟩
  exact Generator.emit_congr hdrawn (hsame.agreeFor_begin hsettled sequence.hooks index)

/-- Another seed changes nothing that is not drawn. -/
theorem after_withSeed {sequence : Sequence} (hdrawn : sequence.isDrawn = false) (seed : Nat)
    (history : List Nat) : (sequence.withSeed seed).after history = sequence.after history := by
  have hstep : (fun state index => ((sequence.withSeed seed).emit state index).value.2) =
      fun state index => (sequence.emit state index).value.2 := by
    funext state index
    exact congrArg (fun emitted => emitted.value.2) (Generator.emit_withSeed hdrawn seed _ state index)
  unfold after
  rw [hstep]
  rfl

/-- Two sequences that are prepared from the same line, with any seeds, have the same emissions at every
index after any histories that settled equal values last, and after all histories if no source mentions
the previous value; unless the numbers are drawn. -/
theorem emission_independent_of_history {context : Context} {line : String} {seed : Nat}
    {sequence sequence' : Sequence} (h : (prepare context line).value = .ok sequence)
    (h' : (prepare { context with seed } line).value = .ok sequence') (hdrawn : sequence.isDrawn = false) :
    (∀ history history' : List Nat,
      ((sequence.after history).settled = (sequence'.after history').settled ∨
        (sequence.after history).settled.strictEqual (sequence'.after history').settled = true) →
      ∀ index, (sequence.emit (sequence.after history) index).value.1 =
        (sequence'.emit (sequence'.after history') index).value.1) ∧
    ((∀ source ∈ sequence.sources, mentions .previous source = false) →
      ∀ (history history' : List Nat) (index : Nat),
        (sequence.emit (sequence.after history) index).value.1 =
          (sequence'.emit (sequence'.after history') index).value.1) := by
  -- Nothing but draws depends on the seed, so both sequences run alike.
  have hseed : sequence' = sequence.withSeed seed := by
    rw [prepare_withSeed, h] at h'
    exact (Except.ok.inj h').symm
  have hemit (state : SequenceState) (index : Nat) : sequence'.emit state index = sequence.emit state index := by
    rw [hseed]
    exact Generator.emit_withSeed hdrawn seed _ state index
  have hafter (history : List Nat) : sequence'.after history = sequence.after history := by
    rw [hseed]
    exact after_withSeed hdrawn seed history
  simp only [hemit, hafter]
  constructor
  · intro history history' hsettled index
    refine emission_congr hdrawn (fun _ _ _ => ?_) index
    obtain hsettled | hsettled := hsettled
    · rw [hsettled]
      exact SameLiteral.refl _
    · exact SameLiteral.of_strictEqual hsettled
  · intro hunmentioned history history' index
    refine emission_congr hdrawn (fun source hsource hmentioned => ?_) index
    rw [hunmentioned source hsource] at hmentioned
    cases hmentioned

/-- An expression that counts from the previous value: two emissions settle the text `2`, whichever they
are, and the third inserts `3`. -/
theorem emission_independent_of_history_counting : ∃ sequence sequence',
    (prepare plainContext "! ::p+1").value = .ok sequence ∧
    (prepare { plainContext with seed := 1 } "! ::p+1").value = .ok sequence' ∧
    sequence.isDrawn = false ∧
    (sequence.after [0, 0]).settled.strictEqual (sequence'.after [2, 1]).settled = true ∧
    (sequence.emit (sequence.after [0, 0]) 1).value.1.text = "3" ∧
    (sequence.emit (sequence.after [0, 0]) 1).value.1 =
      (sequence'.emit (sequence'.after [2, 1]) 1).value.1 := by
  have hread : (prepare plainContext "! ::p+1").value.toOption.map (fun sequence =>
      (sequence.isDrawn,
        (sequence.after [0, 0]).settled.strictEqual ((sequence.withSeed 1).after [2, 1]).settled,
        (sequence.emit (sequence.after [0, 0]) 1).value.1.text)) = some (false, true, "3") := by
    decide +kernel
  obtain ⟨sequence, hsequence, hvalues⟩ := Option.map_eq_some_iff.1 hread
  obtain ⟨hdrawn, hvalues⟩ := Prod.mk.inj hvalues
  obtain ⟨hsettled, htext⟩ := Prod.mk.inj hvalues
  have h : (prepare plainContext "! ::p+1").value = .ok sequence := toOption_eq_some_iff.1 hsequence
  have h' : (prepare { plainContext with seed := 1 } "! ::p+1").value = .ok (sequence.withSeed 1) := by
    rw [prepare_withSeed, h]
    rfl
  exact ⟨sequence, sequence.withSeed 1, h, h', hdrawn, hsettled, htext,
    (emission_independent_of_history h h' hdrawn).1 [0, 0] [2, 1] (.inr hsettled) 1⟩

end Sequence

end SequenceNotation
