import SequenceNotation.Proofs.Script.Lockstep
import SequenceNotation.Script.Snippet

/-!
# More fuel keeps the outcome

A run with more fuel makes the same steps as one with less, until the latter has none left.  So an
outcome other than used-up fuel stays when there is more: of one run, of all readings of a snippet in
order, and of a call of a compiled function.
-/

namespace SequenceNotation.Script

/-- A change that neither reads nor moves the budget keeps machines alike. -/
theorem Machine.Alike.map {slack : Prop} {m m' : Machine} (h : m.Alike slack m')
    {f : Machine → Machine}
    (hf : ∀ (m : Machine) (budget : Budget), f { m with budget } = { f m with budget })
    (hbudget : (f m).budget = m.budget) : (f m).Alike slack (f m') := by
  have hm' : f m' = { f m with budget := m'.budget } := by
    conv_lhs => rw [h.eq]
    exact hf m m'.budget
  have hb' : (f m').budget = m'.budget := by rw [hm']
  refine ⟨by rw [hb', hm'], ?_, ?_, ?_⟩
  · rw [hb', hbudget]
    exact h.milliseconds
  · rw [hb', hbudget]
    exact h.fuel_le
  · rw [hb', hbudget]
    exact h.fuel_eq

theorem Machine.assign_budget (m : Machine) (name : String) (value : Value) :
    (m.assign name value).budget = m.budget := by
  unfold Machine.assign
  split
  · rfl
  · split <;> rfl

theorem Machine.declare_budget (m : Machine) (name : String) (value : Value) :
    (m.declare name value).budget = m.budget := by
  unfold Machine.declare
  split <;> rfl

theorem Machine.assign_with_budget (m : Machine) (budget : Budget) (name : String)
    (value : Value) :
    Machine.assign { m with budget } name value = { m.assign name value with budget } := by
  unfold Machine.assign
  dsimp only
  split
  · rfl
  · split <;> rfl

theorem Machine.declare_with_budget (m : Machine) (budget : Budget) (name : String)
    (value : Value) :
    Machine.declare { m with budget } name value = { m.declare name value with budget } := by
  unfold Machine.declare
  dsimp only
  split <;> rfl

/-- Machines that differ in their fuel run in lockstep while the left one has fuel. -/
theorem lockstep_alike :
    Lockstep True (fun m m' : Machine => m.Alike True m') (fun _ _ => True) where
  alike h := h
  fails _ := trivial
  assign name value h := h.map (f := (·.assign name value))
    (fun m budget => m.assign_with_budget budget name value) (Machine.assign_budget _ _ _)
  declare name value h := h.map (f := (·.declare name value))
    (fun m budget => m.declare_with_budget budget name value) (Machine.declare_budget _ _ _)
  create h := h.map (f := fun m => { m with created := m.created + 1 }) (fun _ _ => rfl) rfl
  push frame h _ := h.map (f := fun m => { m with calls := frame :: m.calls }) (fun _ _ => rfl) rfl
  pop h := h.map (f := fun m => { m with calls := m.calls.tail }) (fun _ _ => rfl) rfl
  failPop _ := trivial

theorem levels_alike :
    Lockstep.Levels (fun m m' : Machine => m.Alike True m') (fun _ _ => True) where
  spend h _ := h.map (f := fun m => { m with spent := m.spent + 1 }) (fun _ _ => rfl) rfl
  overspend _ := trivial
  descend h _ := h.map (f := fun m => { m with depth := m.depth + 1 }) (fun _ _ => rfl) rfl
  ascend h := h.map (f := fun m => { m with depth := m.depth - 1 }) (fun _ _ => rfl) rfl
  failAscend _ := trivial

/-- The interpreter on machines that differ in their fuel. -/
theorem interpreter_alike : lockstep_alike.coupling.Parts interpreter interpreter :=
  lockstep_alike.interpreterOn levels_alike

/-- A result that is not for want of fuel is the same on both sides. -/
theorem Agree.result_eq {σ τ : Type} {S E : σ → τ → Prop} {α : Type}
    {r : Except Fault α × σ} {r' : Except Fault α × τ} (h : Agree True S E Eq r r')
    (hfuel : ∀ steps, r.1 ≠ .error (.fuelExhausted steps)) : r'.1 = r.1 := by
  cases h with
  | ok hV _ => rw [hV]
  | error fault _ => rfl
  | exhausted steps _ => exact absurd rfl (hfuel steps)

/-- Two ways to go on from one result, when the first does not end for want of fuel. -/
theorem bind_eq_of_ne {α β : Type} {r : Except Fault α} {f g : α → Except Fault β}
    (h : ∀ a, (∀ steps, f a ≠ .error (.fuelExhausted steps)) → g a = f a)
    (hne : ∀ steps, (r >>= f) ≠ .error (.fuelExhausted steps)) : (r >>= g) = (r >>= f) := by
  cases r with
  | error fault => rfl
  | ok a => exact h a hne

section

variable {budget : Budget} {fuel : Nat} (hfuel : budget.fuel ≤ fuel)
include hfuel

theorem alike_more_fuel (created : Nat) :
    Machine.Alike True { budget, created } { budget := { budget with fuel }, created } :=
  ⟨rfl, rfl, hfuel, fun h => absurd trivial h⟩

/-- The outcome of a run on a new machine stays with more fuel. -/
theorem result_more_fuel {α : Type} {run : Run α} (created : Nat)
    (h : lockstep_alike.coupling.Rel 0 (fun _ => Eq) run run)
    (hne : ∀ steps, (run.outcome { budget, created }).1 ≠ .error (.fuelExhausted steps)) :
    (run.outcome { budget := { budget with fuel }, created }).1 =
      (run.outcome { budget, created }).1 :=
  (h _ _ (alike_more_fuel hfuel created)).result_eq hne

/-- The global variables after a run on a new machine stay with more fuel. -/
theorem global_more_fuel {run : Run Flow} (h : lockstep_alike.coupling.Rel 0 (fun _ => FlowMatch Eq) run run)
    (name : String)
    (hne : ∀ steps, globalAfter name (runFresh budget run) ≠ .error (.fuelExhausted steps)) :
    globalAfter name (runFresh { budget with fuel } run) = globalAfter name (runFresh budget run) := by
  have hrun := h _ _ (alike_more_fuel hfuel 0)
  unfold runFresh at *
  generalize run.outcome { budget } = r at hne hrun ⊢
  generalize run.outcome { budget := { budget with fuel } } = r' at hrun ⊢
  cases hrun with
  | ok _ hS => simp only [globalAfter, Machine.global, hS.globals]
  | error fault _ => rfl
  | exhausted steps _ => exact absurd rfl (hne steps)

/-- The value of one reading of a snippet stays with more fuel. -/
theorem attempt_more_fuel (strategy : Strategy) (source : String)
    (hne : ∀ steps, strategy.attempt budget source ≠ .error (.fuelExhausted steps)) :
    strategy.attempt { budget with fuel } source = strategy.attempt budget source := by
  cases strategy with
  | expression =>
    refine bind_eq_of_ne (fun tree htree => ?_) hne
    exact result_more_fuel hfuel 0 (interpreter_alike.evaluate tree) htree
  | resultVariable =>
    refine bind_eq_of_ne (fun program hprogram => ?_) hne
    exact global_more_fuel hfuel (interpreter_alike.executeAll program) "result" hprogram
  | ternary =>
    refine bind_eq_of_ne (fun program hprogram => ?_) hne
    cases hternary : ternaryOfProgram? program with
    | none => rfl
    | some conditional =>
      rw [hternary] at hprogram
      exact result_more_fuel hfuel 0 (interpreter_alike.evaluate conditional) hprogram
  | functionBody =>
    refine bind_eq_of_ne (fun program hprogram => ?_) hne
    exact result_more_fuel hfuel 0 (interpreter_alike.bodyValue program) hprogram

/-- The readings left, tried in order, with more fuel.  A reading that runs out of fuel ends the search,
so no reading that was tried had too little. -/
theorem evaluateBy_more_fuel (source : String) (fault : Option Fault)
    (strategies : List Strategy)
    (hne : ∀ steps, evaluateBy budget source fault strategies ≠ .error (.fuelExhausted steps)) :
    evaluateBy { budget with fuel } source fault strategies =
      evaluateBy budget source fault strategies := by
  induction strategies generalizing fault with
  | nil => rfl
  | cons strategy rest ih =>
    have hstep : strategy.attempt { budget with fuel } source = strategy.attempt budget source := by
      refine attempt_more_fuel hfuel strategy source fun steps hexhausted => hne steps ?_
      rw [evaluateBy, hexhausted]
      rfl
    rw [evaluateBy] at hne
    rw [evaluateBy, evaluateBy, hstep]
    cases hattempt : strategy.attempt budget source with
    | ok value =>
      simp only [hattempt] at hne ⊢
      split
      · exact ih fault (by simpa [*] using hne)
      · rfl
    | error other =>
      -- a fault of the budget ends the search, any other one only this reading
      cases other with
      | malformed syntaxFault => exact ih fault (by simpa [hattempt] using hne)
      | timeout milliseconds => rfl
      | fuelExhausted steps => rfl
      | runtime runtimeFault =>
        exact ih _ (by simpa [hattempt, Fault.isBudget] using hne)
      | recursionLimit depth =>
        exact ih _ (by simpa [hattempt, Fault.isBudget] using hne)

/-- More fuel changes neither the value of a snippet nor the fault it ends with, unless that is used-up
fuel, and the same holds of every call of a function. -/
theorem outcome_more_fuel :
    (∀ source, (∀ steps, evaluate budget source ≠ .error (.fuelExhausted steps)) →
      evaluate { budget with fuel } source = evaluate budget source) ∧
    ∀ (callable : Callable) (arguments : List Value),
      (∀ steps, callable.call budget arguments ≠ .error (.fuelExhausted steps)) →
        callable.call { budget with fuel } arguments = callable.call budget arguments := by
  constructor
  · intro source hne
    exact evaluateBy_more_fuel hfuel source none Strategy.all hne
  · intro callable arguments hne
    have harguments : List.Forall₂ Eq arguments arguments := List.forall₂_same.2 fun _ _ => rfl
    have hcall := interpreter_alike.call (f := .function callable.identity callable.parameters
      callable.body callable.captured) rfl harguments
    exact result_more_fuel hfuel callable.created hcall hne

end

/-- A result that is no want of fuel, as a condition that computes. -/
def hasFuel {α : Type} : Except Fault α → Bool
  | .error (.fuelExhausted _) => false
  | _ => true

theorem ne_exhausted_of_hasFuel {α : Type} {result : Except Fault α} (h : hasFuel result = true)
    (steps : Nat) : result ≠ .error (.fuelExhausted steps) := by
  rintro rfl
  exact Bool.noConfusion h

/-- The function `i => i + 1`. -/
def successor : Callable where
  identity := 0
  parameters := ["i"]
  body := .expression (.binary .add (.name "i") (.number 1))
  captured := []
  created := 1

/-- Three rounds, and a successor, cost less than two hundred steps, so a thousand change nothing. -/
theorem outcome_thousand_steps :
    evaluate ⟨1, 1000⟩ "let k = 0; while (k < 3) k++; result = k" =
        evaluate ⟨1, 200⟩ "let k = 0; while (k < 3) k++; result = k" ∧
      successor.call ⟨1, 1000⟩ [.number 41] = successor.call ⟨1, 200⟩ [.number 41] := by
  have h := @outcome_more_fuel ⟨1, 200⟩ 1000 (by decide)
  have hloop : hasFuel (evaluate ⟨1, 200⟩ "let k = 0; while (k < 3) k++; result = k") = true := by
    decide +kernel
  have hcall : hasFuel (successor.call ⟨1, 200⟩ [.number 41]) = true := by
    decide +kernel
  exact ⟨h.1 _ (ne_exhausted_of_hasFuel hloop), h.2 _ _ (ne_exhausted_of_hasFuel hcall)⟩

end SequenceNotation.Script
