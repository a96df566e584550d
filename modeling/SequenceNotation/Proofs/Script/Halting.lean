import Mathlib.Logic.Function.Iterate
import SequenceNotation.Proofs.Script.Journal

/-!
# Every run halts within its limits

The meaning of a tree refers to that of its parts and of called functions, and a loop to its next round.
Neither recursion needs a bottom: past the deepest level, and past the steps left, whatever stands there
is never reached.  So evaluation is a total function, and at every point it lies within the limits.
-/

namespace SequenceNotation.Script

/-! ### Levels -/

theorem Machine.assign_depth (m : Machine) (name : String) (value : Value) :
    (m.assign name value).depth = m.depth := by
  obtain ⟨globals, calls, h, -⟩ := m.assign_eq name value
  rw [h]

theorem Machine.declare_depth (m : Machine) (name : String) (value : Value) :
    (m.declare name value).depth = m.depth := by
  obtain ⟨globals, calls, h, -⟩ := m.declare_eq name value
  rw [h]

/-- One machine at one depth on both sides. -/
def SameAt (depth : Nat) (m m' : Machine) : Prop :=
  m = m' ∧ m.depth = depth

theorem SameAt.change {depth depth' : Nat} {m m' : Machine} (h : SameAt depth m m')
    {f : Machine → Machine} (hf : (f m).depth = depth') : SameAt depth' (f m) (f m') :=
  ⟨congrArg f h.1, hf⟩

theorem sameAt_lockstep (depth : Nat) :
    Lockstep False (SameAt depth) (SameAt depth) where
  alike {m _} h := h.1 ▸ Machine.Alike.refl m
  fails h := h
  assign {m _} name value h :=
    h.change (f := (·.assign name value)) ((m.assign_depth name value).trans h.2)
  declare {m _} name value h :=
    h.change (f := (·.declare name value)) ((m.declare_depth name value).trans h.2)
  create h := h.change (f := fun m => { m with created := m.created + 1 }) h.2
  push frame h _ := h.change (f := fun m => { m with calls := frame :: m.calls }) h.2
  pop h := h.change (f := fun m => { m with calls := m.calls.tail }) h.2
  failPop h := h.change (f := fun m => { m with calls := m.calls.tail }) h.2

/-- Interpreters that do the same on every machine at the depth. -/
abbrev EqualAt (depth : Nat) (p q : Interpreter Machine) : Prop :=
  (sameAt_lockstep depth).coupling.Parts p q

theorem simulates_tick (depth : Nat) :
    Simulates False (SameAt depth) (SameAt depth) Eq Run.tick Run.tick := by
  intro m m' h
  have hspent : SameAt depth _ _ := h.change (f := fun m => { m with spent := m.spent + 1 }) h.2
  obtain ⟨rfl, -⟩ := h
  rw [Run.outcome_tick]
  split
  · exact .error _ hspent
  · split
    · exact .error _ hspent
    · exact .ok rfl hspent

/-- One level deeper the runs only need to agree there, and nothing is run beyond `maxDepth`. -/
theorem simulates_deeper {depth : Nat} {α : Type} {V : α → α → Prop} {x y : Run α}
    (h : depth < maxDepth → Simulates False (SameAt (depth + 1)) (SameAt (depth + 1)) V x y) :
    Simulates False (SameAt depth) (SameAt depth) V (Run.deeper x) (Run.deeper y) := by
  intro m m' hm
  have hdown : SameAt (depth + 1) _ _ :=
    hm.change (f := fun m => { m with depth := m.depth + 1 }) (congrArg Nat.succ hm.2)
  have hup {n n' : Machine} (hn : SameAt (depth + 1) n n') :
      SameAt depth { n with depth := n.depth - 1 } { n' with depth := n'.depth - 1 } :=
    hn.change (f := fun m => { m with depth := m.depth - 1 }) (congrArg Nat.pred hn.2)
  exact .deeper (congrArg Machine.depth hm.1.symm) hm (fun hfree => h (hm.2 ▸ hfree) _ _ hdown) hup hup

theorem equalAt_above {depth : Nat} {p q : Interpreter Machine}
    (h : depth < maxDepth → EqualAt (depth + 1) p q) : EqualAt depth p.above q.above where
  admits _ _ := .all
  parts :=
    { evaluate := fun _ => Simulates.bind (simulates_tick depth) fun _ _ _ =>
        simulates_deeper fun hlt => (h hlt).expressionValue _
      execute := fun _ => Simulates.bind (simulates_tick depth) fun _ _ _ =>
        simulates_deeper fun hlt => (h hlt).statementFlow _ }

theorem equalAt_iterate {p q : Interpreter Machine} (levels depth : Nat)
    (h : EqualAt (depth + levels) p q) :
    EqualAt depth (Interpreter.above^[levels] p) (Interpreter.above^[levels] q) := by
  induction levels generalizing depth with
  | zero => exact h
  | succ levels ih =>
    rw [Function.iterate_succ_apply', Function.iterate_succ_apply']
    refine equalAt_above fun _ => ih (depth + 1) ?_
    rwa [Nat.add_right_comm]

theorem ofLevels_eq_iterate (levels : Nat) :
    (Interpreter.ofLevels levels : Interpreter Machine) =
      Interpreter.above^[levels] (Interpreter.ofLevels 0) := by
  induction levels with
  | zero => rfl
  | succ levels ih => rw [Function.iterate_succ_apply', ← ih, Interpreter.ofLevels]

/-- At the deepest level no part is asked for, so it may be any. -/
theorem equalAt_deepest (bottom : Interpreter Machine) {depth : Nat} (h : maxDepth ≤ depth) :
    EqualAt depth (Interpreter.ofLevels 0) bottom.above := by
  have hdeeper {α : Type} {V : α → α → Prop} (run : Run α) :
      Simulates False (SameAt depth) (SameAt depth) V (throw (.recursionLimit maxDepth))
        (Run.deeper run) := by
    intro m m' hm
    have hfull : maxDepth ≤ (Host.machine m').depth := by
      show maxDepth ≤ m'.depth
      rw [← hm.1, hm.2]
      exact h
    rw [Run.outcome_deeper, if_pos hfull]
    exact .error _ hm
  exact ⟨fun _ _ => .all, fun _ => Simulates.bind (simulates_tick depth) fun _ _ _ => hdeeper _,
    fun _ => Simulates.bind (simulates_tick depth) fun _ _ _ => hdeeper _⟩

theorem FlowMatch.eq {f g : Flow} (h : FlowMatch Eq f g) : f = g := by
  cases h with
  | next => rfl
  | returned h => rw [h]

theorem eq_of_equalAt {p q : Interpreter Machine} (h : ∀ depth, EqualAt depth p q) : p = q := by
  have hrun {α : Type} {V : α → α → Prop} {x y : Run α} (hV : ∀ a b, V a b → a = b)
      (hxy : ∀ depth, Simulates False (SameAt depth) (SameAt depth) V x y) : x = y := by
    refine RunOn.ext_outcome fun m => ?_
    have hm := hxy m.depth m m ⟨rfl, rfl⟩
    generalize x.outcome m = r at hm
    generalize y.outcome m = r' at hm
    cases hm with
    | ok hab hS => rw [hV _ _ hab, hS.1]
    | error fault hE => rw [hE.1]
    | exhausted steps hslack => exact hslack.elim
  obtain ⟨evaluate, execute⟩ := p
  obtain ⟨evaluate', execute'⟩ := q
  have hevaluate : evaluate = evaluate' := funext fun expression =>
    hrun (fun _ _ h => h) fun depth => (h depth).evaluate expression
  have hexecute : execute = execute' := funext fun statement =>
    hrun (fun _ _ h => FlowMatch.eq h) fun depth => (h depth).execute statement
  rw [hevaluate, hexecute]

/-- The recursion over levels is never cut off: any interpreter may stand below the deepest level. -/
theorem iterate_above_eq_interpreter (bottom : Interpreter Machine) :
    Interpreter.above^[maxDepth + 1] bottom = interpreter := by
  rw [Function.iterate_succ_apply]
  refine (eq_of_equalAt fun depth => ?_).symm
  unfold interpreter interpreterOn
  rw [ofLevels_eq_iterate]
  exact equalAt_iterate maxDepth depth (equalAt_deepest bottom (Nat.le_add_left _ _))

/-- The interpreter is the meaning of trees given itself for their parts. -/
theorem interpreter_above : interpreter.above = interpreter := by
  have h := iterate_above_eq_interpreter interpreter.above
  rwa [← Function.iterate_succ_apply, Function.iterate_succ_apply',
    iterate_above_eq_interpreter] at h

/-! ### Rounds -/

/-- The machine while a run goes on: the budget stands, some steps are spent, and none too many. -/
structure Machine.Going (budget : Budget) (spent : Nat) (m : Machine) : Prop where
  budget_eq : m.budget = budget
  le_spent : spent ≤ m.spent
  spent_le : m.spent ≤ budget.fuel

/-- Two runs on one machine that goes on. -/
def SameGoing (budget : Budget) (spent : Nat) (m m' : Machine) : Prop :=
  m = m' ∧ m.Going budget spent

theorem SameGoing.change {budget : Budget} {spent : Nat} {m m' : Machine}
    (h : SameGoing budget spent m m') {f : Machine → Machine} {globals : Frame}
    {calls : List Frame} {created depth : Nat}
    (hf : f m = { m with globals, calls, created, depth }) :
    SameGoing budget spent (f m) (f m') := by
  refine ⟨congrArg f h.1, ?_⟩
  rw [hf]
  exact ⟨h.2.budget_eq, h.2.le_spent, h.2.spent_le⟩

theorem going_lockstep (budget : Budget) (spent : Nat) :
    Lockstep False (SameGoing budget spent) (fun _ _ => True) where
  alike {m _} h := h.1 ▸ Machine.Alike.refl m
  fails _ := trivial
  assign {m _} name value h := by
    obtain ⟨globals, calls, heq, -⟩ := m.assign_eq name value
    exact h.change heq
  declare {m _} name value h := by
    obtain ⟨globals, calls, heq, -⟩ := m.declare_eq name value
    exact h.change heq
  create h := h.change (f := fun m => { m with created := m.created + 1 }) rfl
  push frame h _ := h.change (f := fun m => { m with calls := frame :: m.calls }) rfl
  pop h := h.change (f := fun m => { m with calls := m.calls.tail }) rfl
  failPop _ := trivial

theorem going_levels (budget : Budget) (spent : Nat) :
    Lockstep.Levels (SameGoing budget spent) (fun _ _ => True) where
  spend {m m'} h hleft := by
    obtain ⟨rfl, hm⟩ := h
    exact ⟨rfl, hm.budget_eq, Nat.le_succ_of_le hm.le_spent, hm.budget_eq ▸ hleft⟩
  overspend _ := trivial
  descend h _ := h.change (f := fun m => { m with depth := m.depth + 1 }) rfl
  ascend h := h.change (f := fun m => { m with depth := m.depth - 1 }) rfl
  failAscend _ := trivial

theorem going_interpreter (budget : Budget) (spent : Nat) :
    (going_lockstep budget spent).coupling.Parts interpreter interpreter :=
  (going_lockstep budget spent).interpreterOn (going_levels budget spent)

/-- What is left after a result in lockstep with itself goes on. -/
theorem Machine.Going.of_simulates {budget : Budget} {spent : Nat} {α : Type} {V : α → α → Prop}
    {x : Run α} (h : Simulates False (SameGoing budget spent) (fun _ _ => True) V x x)
    {m m' : Machine} {a : α} (hm : m.Going budget spent) (hx : x.outcome m = (.ok a, m')) :
    m'.Going budget spent := by
  have hrun := h m m ⟨rfl, hm⟩
  rw [hx] at hrun
  cases hrun with
  | ok _ hS => exact hS.2

/-- A tree that has a value has cost a step. -/
theorem going_of_evaluate {expression : Expression} {m m' : Machine} {value : Value}
    (h : (interpreter.evaluate expression).outcome m = (.ok value, m')) :
    m'.Going m.budget (m.spent + 1) := by
  -- one level is the step and, below it, an interpreter that loses no steps
  rw [← interpreter_above] at h
  have htick := Run.outcome_tick m
  split at htick
  · exact absurd (h.symm.trans (RunOn.outcome_bind_error htick)) (by simp)
  · rename_i hleft
    split at htick
    · exact absurd (h.symm.trans (RunOn.outcome_bind_error htick)) (by simp)
    · have hdeeper := (going_lockstep m.budget (m.spent + 1)).deeper (going_levels _ _)
        ((going_interpreter _ _).expressionValue expression)
      have hspent : Machine.Going m.budget (m.spent + 1) { m with spent := m.spent + 1 } :=
        ⟨rfl, Nat.le_refl _, Nat.le_of_not_lt hleft⟩
      exact hspent.of_simulates hdeeper ((RunOn.outcome_bind_ok htick).symm.trans h)

/-- One round of a loop, given what follows it. -/
def Interpreter.round (p : Interpreter Machine) (test : Expression) (body : Statement)
    (next : Run Flow) : Run Flow := do
  if (← p.evaluate test).isTruthy then
    match ← p.execute body with
    | .next => next
    | .returned value => return .returned value
  else
    return .next

theorem loop_eq_iterate (p : Interpreter Machine) (test : Expression) (body : Statement)
    (rounds : Nat) : p.loop test body rounds = (p.round test body)^[rounds] Run.exhausted := by
  induction rounds with
  | zero => rfl
  | succ rounds ih => rw [Function.iterate_succ_apply', ← ih]; rfl

/-- With more rounds than steps left it does not matter what follows the last round.  Induction on the
rounds: each costs a step. -/
theorem iterate_round_eq {test : Expression} {body : Statement} {last last' : Run Flow}
    {n k : Nat} {m : Machine} (hn : m.budget.fuel - m.spent < n)
    (hk : m.budget.fuel - m.spent < k) :
    ((interpreter.round test body)^[n] last).outcome m =
      ((interpreter.round test body)^[k] last').outcome m := by
  induction n generalizing k m with
  | zero => omega
  | succ n ih =>
    cases k with
    | zero => omega
    | succ k =>
      rw [Function.iterate_succ_apply', Function.iterate_succ_apply']
      unfold Interpreter.round
      rw [RunOn.outcome_bind, RunOn.outcome_bind]
      cases htest : (interpreter.evaluate test).outcome m with
      | mk result m₁ =>
        cases result with
        | error fault => rfl
        | ok value =>
          have hm₁ := going_of_evaluate htest
          dsimp only
          split
          · rw [RunOn.outcome_bind, RunOn.outcome_bind]
            cases hbody : (interpreter.execute body).outcome m₁ with
            | mk result m₂ =>
              cases result with
              | error fault => rfl
              | ok flow =>
                cases flow with
                | returned value => rfl
                | next =>
                  -- the test alone has cost a step, so both sides have rounds for the others
                  have hm₂ := hm₁.of_simulates ((going_interpreter _ _).execute body) hbody
                  have hbudget := hm₂.budget_eq
                  have hspent := hm₂.le_spent
                  have hfuel := hm₂.spent_le
                  exact ih (by rw [hbudget]; omega) (by rw [hbudget]; omega)
          · rfl

/-- A loop makes rounds until its test fails: the bound on its rounds is never met. -/
theorem loop_eq_rounds {test : Expression} {body : Statement} (last : Run Flow) {n : Nat}
    {m : Machine} (hn : m.budget.fuel - m.spent < n) :
    (interpreter.statementFlow (.loop test body)).outcome m =
      ((interpreter.round test body)^[n] last).outcome m := by
  have hloop : (interpreter.statementFlow (.loop test body)).outcome m =
      (interpreter.loop test body (m.budget.fuel - m.spent + 1)).outcome m := rfl
  rw [hloop, loop_eq_iterate]
  exact iterate_round_eq (Nat.lt_succ_self _) hn

/-! ### Halting -/

/-- Every run halts within its limits.  Evaluation is a function of the tree and the machine: its
recursion over trees and calls ends above any interpreter, its loops end before any last round.  On a
new machine programs, bodies, expressions and calls then spend one step beyond the fuel at most, and at
every point the depth and the number of frames are bounded. -/
theorem run_halts_within_limits :
    (∀ bottom, Interpreter.above^[maxDepth + 1] bottom = interpreter) ∧
    (∀ test body last (m : Machine) extra,
      (interpreter.statementFlow (.loop test body)).outcome m =
        ((interpreter.round test body)^[m.budget.fuel - m.spent + 1 + extra] last).outcome m) ∧
    ∀ (budget : Budget) (created : Nat),
      (∀ program, AnyRun.StaysWithin (fun σ _ => (interpreterOn σ).executeAll program)
        { budget, created }) ∧
      (∀ body, AnyRun.StaysWithin (fun σ _ => (interpreterOn σ).bodyValue body)
        { budget, created }) ∧
      (∀ expression, AnyRun.StaysWithin (fun σ _ => (interpreterOn σ).evaluate expression)
        { budget, created }) ∧
      (∀ function arguments, AnyRun.StaysWithin
        (fun σ _ => (interpreterOn σ).call function arguments) { budget, created }) := by
  have h := Journal.interpreterOn_parts
  have hrounds (m : Machine) (extra : Nat) :
      m.budget.fuel - m.spent < m.budget.fuel - m.spent + 1 + extra := by omega
  refine ⟨iterate_above_eq_interpreter,
    fun test body last m extra => loop_eq_rounds last (hrounds m extra), ?_⟩
  intro budget created
  refine ⟨fun program => ?_, fun body => ?_, fun expression => ?_, fun function arguments => ?_⟩
  · exact AnyRun.staysWithin_new _ (h.executeAll program) (fun _ _ => FlowMatch.eq) budget created
  · exact AnyRun.staysWithin_new _ (h.bodyValue body) (fun _ _ h => h) budget created
  · exact AnyRun.staysWithin_new _ (h.evaluate expression) (fun _ _ h => h) budget created
  · have harguments : List.Forall₂ Eq arguments arguments := List.forall₂_same.2 fun _ _ => rfl
    exact AnyRun.staysWithin_new _ (h.call (f := function) rfl harguments) (fun _ _ h => h)
      budget created

end SequenceNotation.Script
