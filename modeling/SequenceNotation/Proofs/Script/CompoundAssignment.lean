import SequenceNotation.Proofs.Script.Meaning

/-!
# Compound assignment

A compound assignment evaluates its operand and then reads the variable, while the assignment of the sum or product
reads the variable first.  So they agree as long as the operand leaves the variable as it was, and also where the old
and the new value give the same; and where the variable cannot be read, if the operand fails for the same reason.
-/

namespace SequenceNotation.Script

open RunOn (outcome)

/-- The value of a name, or the fault that it has none. -/
def Machine.read (m : Machine) (name : String) : Except RuntimeFault Value :=
  match m.lookup? name with
  | some value => .ok value
  | none =>
    if name = "Infinity" then .ok (.number Number.Double.posInfinity)
    else if name = "NaN" then .ok (.number .nan)
    else .error (.notDefined name)

theorem Machine.read_error {m : Machine} {name : String} {fault : RuntimeFault} (h : m.read name = .error fault) :
    fault = .notDefined name := by
  unfold Machine.read at h
  split at h
  · cases h
  · split at h
    · cases h
    · split at h
      · cases h
      · cases h
        rfl

theorem Run.outcome_lift (result : Except RuntimeFault Value) (m : Machine) :
    (Run.lift result : Run Value).outcome m = (result.mapError .runtime, m) := by
  cases result <;> rfl

theorem Run.outcome_read (name : String) (m : Machine) :
    (Run.read name : Run Value).outcome m = ((m.read name).mapError .runtime, m) := by
  have hlookup : (Run.lookup? name : Run (Option Value)).outcome m = (.ok (m.lookup? name), m) := rfl
  unfold Run.read Machine.read
  rw [RunOn.outcome_bind_ok hlookup]
  cases m.lookup? name with
  | some value => rfl
  | none =>
    dsimp only
    split
    · rfl
    · split <;> rfl

section

variable (operator : BinaryOperator) (name : String) (operand : Expression)

/-- The assignment through an operator. -/
def compoundAssignment : Expression :=
  .assign name (some operator) operand

/-- The assignment of what the operator makes of the variable and the operand. -/
def expandedAssignment : Expression :=
  .assign name none (.binary operator (.name name) operand)

/-- The value to be stored, with the operand evaluated first. -/
def operandFirst : Run Value := do
  let value ← interpreter.evaluate operand
  let old ← Run.read name
  Run.lift (applyBinary operator old value)

/-- The value to be stored, with the variable read first. -/
def variableFirst : Run Value := do
  let old ← Run.read name
  let value ← interpreter.evaluate operand
  Run.lift (applyBinary operator old value)

/-- Stores a value under a name and gives it back. -/
def stored (value : Value) : Run Value := do
  Run.assign name value
  return value

/-- But for its level, a compound assignment reads the variable behind the operand. -/
theorem interchangeable_compound :
    Interchangeable .none ⟨1, 1⟩ Eq (interpreter.evaluate (compoundAssignment operator name operand))
      (operandFirst operator name operand >>= stored name) := by
  have hrule : interpreter.expressionValue (compoundAssignment operator name operand) =
      operandFirst operator name operand >>= stored name := by
    unfold operandFirst
    rw [bind_assoc]
    rfl
  rw [evaluate_eq, ← hrule]
  exact (Interchangeable.expressionValue _).levelLeft

/-- But for its levels, an expanded assignment reads the variable in front of the operand. -/
theorem interchangeable_expanded :
    Interchangeable .none ⟨3, 3⟩ Eq (interpreter.evaluate (expandedAssignment operator name operand))
      (variableFirst operator name operand >>= stored name) := by
  have hread : Interchangeable .none ⟨1, 1⟩ Eq (interpreter.evaluate (.name name)) (Run.read name) := by
    rw [evaluate_eq]
    exact (Interchangeable.read name).levelLeft
  have hrest (old : Value) : Interchangeable .none .none Eq
      (interpreter.evaluate operand >>= fun value => Run.lift (applyBinary operator old value))
      (interpreter.evaluate operand >>= fun value => Run.lift (applyBinary operator old value)) :=
    (Interchangeable.evaluate operand).bind_eq fun value => .lift _
  have hbinary : Interchangeable .none ⟨2, 2⟩ Eq (interpreter.evaluate (.binary operator (.name name) operand))
      (variableFirst operator name operand) := by
    rw [evaluate_eq]
    exact (hread.bind_eq hrest).levelLeft
  have hstored (value : Value) : Interchangeable .none .none Eq (stored name value) (stored name value) :=
    (Interchangeable.assign name value).bind_eq fun _ => .pure rfl
  rw [evaluate_eq]
  exact (hbinary.bind_eq hstored).levelLeft

end

/-! ### When both agree -/

/-- Reading the variable in front of the operand, from the machine, is like reading it behind: where the operand has a
value, both give the same with it; where it fails, no other fault comes first. -/
def ReadsAlike (operator : BinaryOperator) (name : String) (m : Machine) : Except Fault Value × Machine → Prop
  | (.ok value, n) =>
    ((m.read name).bind fun old => applyBinary operator old value) =
        ((n.read name).bind fun old => applyBinary operator old value) ∧
      ((∃ old, m.read name = .ok old) ∨ m.SameVariables n)
  | (.error fault, n) =>
    (∃ old, m.read name = .ok old) ∨ (fault = .runtime (.notDefined name) ∧ m.SameVariables n)

/-- What is left when the value of an operation has been stored, or the operation has failed. -/
def Machine.store (n : Machine) (name : String) : Except RuntimeFault Value → Except Fault Value × Machine
  | .ok value => (.ok value, n.assign name value)
  | .error fault => (.error (.runtime fault), n)

section

variable {operator : BinaryOperator} {name : String} {operand : Expression} {m n : Machine}

theorem outcome_stored {x : Run Value} {result : Except RuntimeFault Value}
    (h : x.outcome m = (result.mapError .runtime, n)) : (x >>= stored name).outcome m = n.store name result := by
  cases result with
  | ok value => exact RunOn.outcome_bind_ok h
  | error fault => exact RunOn.outcome_bind_error h

theorem outcome_operandFirst :
    (operandFirst operator name operand >>= stored name).outcome m =
      match (interpreter.evaluate operand).outcome m with
      | (.ok value, n) => n.store name ((n.read name).bind fun old => applyBinary operator old value)
      | (.error fault, n) => (.error fault, n) := by
  unfold operandFirst
  cases hoperand : (interpreter.evaluate operand).outcome m with
  | mk result n =>
    cases result with
    | ok value =>
      refine outcome_stored ?_
      rw [RunOn.outcome_bind_ok hoperand, RunOn.outcome_bind, Run.outcome_read]
      cases n.read name with
      | ok old => exact Run.outcome_lift _ n
      | error fault => rfl
    | error fault => exact RunOn.outcome_bind_error (RunOn.outcome_bind_error hoperand)

theorem outcome_variableFirst :
    (variableFirst operator name operand >>= stored name).outcome m =
      match m.read name with
      | .ok old =>
        match (interpreter.evaluate operand).outcome m with
        | (.ok value, n) => n.store name (applyBinary operator old value)
        | (.error fault, n) => (.error fault, n)
      | .error fault => (.error (.runtime fault), m) := by
  unfold variableFirst
  have hread := Run.outcome_read name m
  cases hown : m.read name with
  | error fault =>
    rw [hown] at hread
    exact RunOn.outcome_bind_error (RunOn.outcome_bind_error hread)
  | ok old =>
    rw [hown] at hread
    cases hoperand : (interpreter.evaluate operand).outcome m with
    | mk result n =>
      cases result with
      | ok value =>
        refine outcome_stored ?_
        rw [RunOn.outcome_bind_ok hread, RunOn.outcome_bind_ok hoperand]
        exact Run.outcome_lift _ n
      | error fault =>
        refine RunOn.outcome_bind_error ?_
        rw [RunOn.outcome_bind_ok hread]
        exact RunOn.outcome_bind_error hoperand

theorem endsSame_store {result result' : Except RuntimeFault Value} :
    EndsSame (n.store name result) (n.store name result') ↔ result = result' := by
  constructor
  · rintro ⟨hresult, -⟩
    cases result <;> cases result' <;> cases hresult <;> rfl
  · rintro rfl
    exact ⟨rfl, .refl _⟩

theorem endsSame_store_error {result : Except RuntimeFault Value} {fault : RuntimeFault} :
    EndsSame (n.store name result) (.error (.runtime fault), m) ↔ result = .error fault ∧ m.SameVariables n := by
  constructor
  · rintro ⟨hresult, hm⟩
    cases result with
    | ok value => cases hresult
    | error other =>
      cases hresult
      exact ⟨rfl, hm.symm⟩
  · rintro ⟨rfl, hm⟩
    exact ⟨rfl, hm.symm⟩

theorem not_runsShort_store (result : Except RuntimeFault Value) : ¬RunsShort (n.store name result) := by
  rintro ⟨fault, hfault, hshort⟩
  cases result with
  | ok value => cases hfault
  | error fault =>
    cases hfault
    cases hshort

/-- Whether the order of reading makes a difference. -/
theorem endsSame_iff_readsAlike :
    EndsSame ((operandFirst operator name operand >>= stored name).outcome m)
        ((variableFirst operator name operand >>= stored name).outcome m) ↔
      ReadsAlike operator name m ((interpreter.evaluate operand).outcome m) := by
  rw [outcome_operandFirst, outcome_variableFirst]
  generalize (interpreter.evaluate operand).outcome m = after
  obtain ⟨result, n⟩ := after
  unfold ReadsAlike
  cases hread : m.read name with
  | ok old =>
    cases result with
    | ok value => exact endsSame_store.trans ⟨fun h => ⟨h.symm, .inl ⟨old, rfl⟩⟩, fun h => h.1.symm⟩
    | error fault => exact iff_of_true ⟨rfl, .refl n⟩ (.inl ⟨old, rfl⟩)
  | error other =>
    obtain rfl := Machine.read_error hread
    cases result with
    | ok value =>
      refine endsSame_store_error.trans ⟨fun h => ⟨h.1.symm, .inr h.2⟩, fun h => ⟨h.1.symm, h.2.resolve_left nofun⟩⟩
    | error fault =>
      refine ⟨fun h => .inr ⟨Except.error.inj h.1, h.2.symm⟩, fun h => ?_⟩
      obtain ⟨rfl, hm⟩ := h.resolve_left nofun
      exact ⟨rfl, hm.symm⟩

/-- Neither order runs short if the operand does not. -/
theorem not_runsShort_stored (h : ¬RunsShort ((interpreter.evaluate operand).outcome m)) :
    ¬RunsShort ((operandFirst operator name operand >>= stored name).outcome m) ∧
      ¬RunsShort ((variableFirst operator name operand >>= stored name).outcome m) := by
  rw [outcome_operandFirst, outcome_variableFirst]
  generalize (interpreter.evaluate operand).outcome m = after at h ⊢
  obtain ⟨result, n⟩ := after
  cases m.read name with
  | ok old =>
    cases result with
    | ok value => exact ⟨not_runsShort_store _, not_runsShort_store _⟩
    | error fault => exact ⟨h, h⟩
  | error other =>
    have hmissing := @not_runsShort_store name m (.error other)
    cases result with
    | ok value => exact ⟨not_runsShort_store _, hmissing⟩
    | error fault => exact ⟨h, hmissing⟩

end

/-- An operand that comes to an end decides whether a compound assignment is the expanded one.  Both come to an end
with a few steps and levels more than the operand has needed; and from the variables of its machine they end the same,
wherever neither runs short, exactly if the variable reads alike in front of the operand and behind it. -/
theorem compound_expands_iff (operator : BinaryOperator) (name : String) {operand : Expression} {m : Machine}
    (h : ¬RunsShort ((interpreter.evaluate operand).outcome m)) :
    (∀ n, m.SameVariables n → m.Roomier .everything ⟨3, 3⟩ n →
        ¬RunsShort ((interpreter.evaluate (compoundAssignment operator name operand)).outcome n) ∧
          ¬RunsShort ((interpreter.evaluate (expandedAssignment operator name operand)).outcome n)) ∧
      ∀ n n', m.SameVariables n → m.SameVariables n' →
        ¬RunsShort ((interpreter.evaluate (compoundAssignment operator name operand)).outcome n) →
        ¬RunsShort ((interpreter.evaluate (expandedAssignment operator name operand)).outcome n') →
          (EndsSame ((interpreter.evaluate (compoundAssignment operator name operand)).outcome n)
              ((interpreter.evaluate (expandedAssignment operator name operand)).outcome n') ↔
            ReadsAlike operator name m ((interpreter.evaluate operand).outcome m)) := by
  have hcompound := (interchangeable_compound operator name operand).sameMeaning
  have hexpanded := (interchangeable_expanded operator name operand).sameMeaning
  obtain ⟨hoperandFirst, hvariableFirst⟩ := @not_runsShort_stored operator name operand m h
  refine ⟨fun n hn hroom => ⟨?_, ?_⟩, fun n n' hn hn' hshort hshort' => ?_⟩
  · exact hcompound.lasts' hn (hroom.mono ⟨by decide, by decide⟩) hoperandFirst
  · exact hexpanded.lasts' hn hroom hvariableFirst
  · have hleft := hcompound.agree hn.symm hshort hoperandFirst
    have hright := hexpanded.agree hn'.symm hshort' hvariableFirst
    rw [← endsSame_iff_readsAlike]
    exact ⟨fun hsame => (hleft.symm.trans hsame).trans hright, fun hsame => (hleft.trans hsame).trans hright.symm⟩

/-- A machine on which `x` is one. -/
def oneAsX : Machine :=
  { budget := ⟨1, 100⟩, globals := [("x", .number 1)] }

/-- Two leaves the variable as it was, so that `x += 2` is `x = x + 2`. -/
theorem compound_expands_two :
    ¬RunsShort ((interpreter.evaluate (.number 2)).outcome oneAsX) ∧
      EndsSame ((interpreter.evaluate (compoundAssignment .add "x" (.number 2))).outcome oneAsX)
        ((interpreter.evaluate (expandedAssignment .add "x" (.number 2))).outcome oneAsX) := by
  have hoperand : (interpreter.evaluate (.number 2)).outcome oneAsX = (.ok (.number 2), { oneAsX with spent := 1 }) := by
    rfl
  have hshort : ¬RunsShort ((interpreter.evaluate (.number 2)).outcome oneAsX) := by
    rw [hoperand]
    exact not_runsShort_of_isSome rfl
  have hends := (compound_expands_iff .add "x" hshort).2 oneAsX oneAsX (.refl _) (.refl _)
    (not_runsShort_of_isSome (by decide +kernel)) (not_runsShort_of_isSome (by decide +kernel))
  refine ⟨hshort, hends.2 ?_⟩
  rw [hoperand]
  exact ⟨rfl, .inl ⟨.number 1, rfl⟩⟩

/-- An operand that assigns five to the variable is added to five and not to one. -/
theorem compound_differs :
    ((interpreter.evaluate (compoundAssignment .add "x" (.assign "x" none (.number 5)))).outcome oneAsX).1.toOption.map
          Value.toText = some "10" ∧
      ((interpreter.evaluate (expandedAssignment .add "x" (.assign "x" none (.number 5)))).outcome
          oneAsX).1.toOption.map Value.toText = some "6" ∧
      ¬EndsSame ((interpreter.evaluate (compoundAssignment .add "x" (.assign "x" none (.number 5)))).outcome oneAsX)
        ((interpreter.evaluate (expandedAssignment .add "x" (.assign "x" none (.number 5)))).outcome oneAsX) := by
  have hcompound : ((interpreter.evaluate (compoundAssignment .add "x" (.assign "x" none (.number 5)))).outcome
      oneAsX).1.toOption.map Value.toText = some "10" := by
    decide +kernel
  have hexpanded : ((interpreter.evaluate (expandedAssignment .add "x" (.assign "x" none (.number 5)))).outcome
      oneAsX).1.toOption.map Value.toText = some "6" := by
    decide +kernel
  refine ⟨hcompound, hexpanded, fun hsame => ?_⟩
  rw [hsame.1, hexpanded] at hcompound
  exact absurd hcompound (by decide)

end SequenceNotation.Script
