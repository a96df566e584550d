import SequenceNotation.Proofs.Script.Coupling

/-!
# Runs in lockstep

Two runs are in lockstep when their machines differ in the budget at most, so that they take the same
steps and find the same values.  They end alike, unless the left one has less fuel and runs out of it.
A relation of states that the single changes of the machine keep gives a coupling.
-/

namespace SequenceNotation.Script

/-- Machines that differ in their fuel at most; without `slack` they are equal. -/
structure Machine.Alike (slack : Prop) (m m' : Machine) : Prop where
  eq : m' = { m with budget := m'.budget }
  milliseconds : m'.budget.milliseconds = m.budget.milliseconds
  fuel_le : m.budget.fuel ≤ m'.budget.fuel
  fuel_eq : ¬ slack → m.budget.fuel = m'.budget.fuel

/-- Both runs end alike in related states: in `S` after a result, in `E` after a fault.  With `slack` the
left run may also have run out of fuel. -/
inductive Agree {σ τ : Type} (slack : Prop) (S E : σ → τ → Prop) {α β : Type}
    (V : α → β → Prop) : Except Fault α × σ → Except Fault β × τ → Prop
  | ok {a b s t} (hV : V a b) (hS : S s t) : Agree slack S E V (.ok a, s) (.ok b, t)
  | error (fault) {s t} (hE : E s t) : Agree slack S E V (.error fault, s) (.error fault, t)
  | exhausted (steps) {s r} (hslack : slack) : Agree slack S E V (.error (.fuelExhausted steps), s) r

/-- From states in `S` the two runs agree. -/
def Simulates {σ τ : Type} (slack : Prop) (S E : σ → τ → Prop) {α β : Type} (V : α → β → Prop)
    (x : RunOn σ α) (y : RunOn τ β) : Prop :=
  ∀ s t, S s t → Agree slack S E V (x.outcome s) (y.outcome t)

/-- A relation of states with machines that are alike.  After a fault only `E` has to hold. -/
structure InStep {σ τ : Type} [Host σ] [Host τ] (slack : Prop) (S E : σ → τ → Prop) : Prop where
  alike : ∀ {s t}, S s t → (Host.machine s).Alike slack (Host.machine t)
  fails : ∀ {s t}, S s t → E s t

/-- Such a relation that the single changes of the machine keep.  What holds after a fault has to be kept
while the run leaves its frames. -/
structure Lockstep {σ τ : Type} [Host σ] [Host τ] (slack : Prop) (S E : σ → τ → Prop) : Prop
    extends InStep slack S E where
  assign : ∀ {s t} name value, S s t →
    S (Host.change (·.assign name value) s) (Host.change (·.assign name value) t)
  declare : ∀ {s t} name value, S s t →
    S (Host.change (·.declare name value) s) (Host.change (·.declare name value) t)
  create : ∀ {s t}, S s t → S (Host.change (fun m => { m with created := m.created + 1 }) s)
    (Host.change (fun m => { m with created := m.created + 1 }) t)
  push : ∀ {s t} frame, S s t → (Host.machine s).calls.length < maxCallDepth →
    S (Host.change (fun m => { m with calls := frame :: m.calls }) s)
      (Host.change (fun m => { m with calls := frame :: m.calls }) t)
  pop : ∀ {s t}, S s t → S (Host.change (fun m => { m with calls := m.calls.tail }) s)
    (Host.change (fun m => { m with calls := m.calls.tail }) t)
  failPop : ∀ {s t}, E s t → E (Host.change (fun m => { m with calls := m.calls.tail }) s)
    (Host.change (fun m => { m with calls := m.calls.tail }) t)

/-- What spending a step and going deeper ask of a relation of states: `spend` is for a step that is
granted, `overspend` for one that is refused. -/
structure Lockstep.Levels {σ τ : Type} [Host σ] [Host τ] (S E : σ → τ → Prop) : Prop where
  spend : ∀ {s t}, S s t → (Host.machine s).spent < (Host.machine s).budget.fuel →
    S (Host.change (fun m => { m with spent := m.spent + 1 }) s)
      (Host.change (fun m => { m with spent := m.spent + 1 }) t)
  overspend : ∀ {s t}, S s t → E (Host.change (fun m => { m with spent := m.spent + 1 }) s)
    (Host.change (fun m => { m with spent := m.spent + 1 }) t)
  descend : ∀ {s t}, S s t → (Host.machine s).depth < maxDepth →
    S (Host.change (fun m => { m with depth := m.depth + 1 }) s)
      (Host.change (fun m => { m with depth := m.depth + 1 }) t)
  ascend : ∀ {s t}, S s t → S (Host.change (fun m => { m with depth := m.depth - 1 }) s)
    (Host.change (fun m => { m with depth := m.depth - 1 }) t)
  failAscend : ∀ {s t}, E s t → E (Host.change (fun m => { m with depth := m.depth - 1 }) s)
    (Host.change (fun m => { m with depth := m.depth - 1 }) t)

namespace Machine.Alike

variable {slack : Prop} {m m' : Machine}

theorem spent (h : m.Alike slack m') : m'.spent = m.spent := by rw [h.eq]
theorem depth (h : m.Alike slack m') : m'.depth = m.depth := by rw [h.eq]
theorem calls (h : m.Alike slack m') : m'.calls = m.calls := by rw [h.eq]
theorem globals (h : m.Alike slack m') : m'.globals = m.globals := by rw [h.eq]
theorem created (h : m.Alike slack m') : m'.created = m.created := by rw [h.eq]
theorem captured (h : m.Alike slack m') : m'.captured = m.captured := by rw [h.eq]; rfl

theorem lookup? (h : m.Alike slack m') (name : String) : m'.lookup? name = m.lookup? name := by
  rw [h.eq]
  rfl

theorem refl (m : Machine) : m.Alike slack m := ⟨rfl, rfl, Nat.le_refl _, fun _ => rfl⟩

end Machine.Alike

namespace Agree

variable {σ τ : Type} [Host σ] [Host τ] {slack : Prop} {S S' E E' : σ → τ → Prop}
variable {α β : Type} {V : α → β → Prop} {x : RunOn σ α} {y : RunOn τ β} {s : σ} {t : τ}

/-- Runs that agree with a frame on top agree when the frame has gone again, after a fault, too. -/
theorem inFrame {F G : Frame}
    (hcalls : (Host.machine t).calls.length = (Host.machine s).calls.length) (hfail : E s t)
    (h : (Host.machine s).calls.length < maxCallDepth →
      Agree slack S' E' V (x.outcome (Host.change (fun m => { m with calls := F :: m.calls }) s))
        (y.outcome (Host.change (fun m => { m with calls := G :: m.calls }) t)))
    (hpop : ∀ {s t}, S' s t → S (Host.change (fun m => { m with calls := m.calls.tail }) s)
      (Host.change (fun m => { m with calls := m.calls.tail }) t))
    (hfailPop : ∀ {s t}, E' s t → E (Host.change (fun m => { m with calls := m.calls.tail }) s)
      (Host.change (fun m => { m with calls := m.calls.tail }) t)) :
    Agree slack S E V ((Run.inFrame F x).outcome s) ((Run.inFrame G y).outcome t) := by
  rw [Run.outcome_inFrame, Run.outcome_inFrame, hcalls]
  by_cases hfull : maxCallDepth ≤ (Host.machine s).calls.length
  · rw [if_pos hfull, if_pos hfull]
    exact .error _ hfail
  · rw [if_neg hfull, if_neg hfull]
    have hxy := h (Nat.lt_of_not_le hfull)
    -- the frame goes away after a fault, too
    dsimp only
    generalize x.outcome _ = r at hxy
    generalize y.outcome _ = r' at hxy
    cases hxy with
    | ok hV hS => exact .ok hV (hpop hS)
    | error fault hE => exact .error fault (hfailPop hE)
    | exhausted steps hslack => exact .exhausted steps hslack

/-- Runs that agree a level deeper agree when they are back. -/
theorem deeper (hdepth : (Host.machine t).depth = (Host.machine s).depth) (hfail : E s t)
    (h : (Host.machine s).depth < maxDepth →
      Agree slack S' E' V (x.outcome (Host.change (fun m => { m with depth := m.depth + 1 }) s))
        (y.outcome (Host.change (fun m => { m with depth := m.depth + 1 }) t)))
    (hup : ∀ {s t}, S' s t → S (Host.change (fun m => { m with depth := m.depth - 1 }) s)
      (Host.change (fun m => { m with depth := m.depth - 1 }) t))
    (hfailUp : ∀ {s t}, E' s t → E (Host.change (fun m => { m with depth := m.depth - 1 }) s)
      (Host.change (fun m => { m with depth := m.depth - 1 }) t)) :
    Agree slack S E V ((Run.deeper x).outcome s) ((Run.deeper y).outcome t) := by
  rw [Run.outcome_deeper, Run.outcome_deeper, hdepth]
  by_cases hfull : maxDepth ≤ (Host.machine s).depth
  · rw [if_pos hfull, if_pos hfull]
    exact .error _ hfail
  · rw [if_neg hfull, if_neg hfull]
    have hxy := h (Nat.lt_of_not_le hfull)
    dsimp only
    generalize x.outcome _ = r at hxy
    generalize y.outcome _ = r' at hxy
    cases hxy with
    | ok hV hS => exact .ok hV (hup hS)
    | error fault hE => exact .error fault (hfailUp hE)
    | exhausted steps hslack => exact .exhausted steps hslack

end Agree

namespace Simulates

variable {σ τ : Type} {slack : Prop} {S E : σ → τ → Prop}
variable {α β γ δ : Type} {V : α → β → Prop} {W : γ → δ → Prop}

theorem pure {a : α} {b : β} (h : V a b) :
    Simulates slack S E V (pure a : RunOn σ α) (pure b) := by
  intro s t hS
  rw [RunOn.outcome_pure, RunOn.outcome_pure]
  exact .ok h hS

theorem bind {x : RunOn σ α} {y : RunOn τ β} {f : α → RunOn σ γ} {g : β → RunOn τ δ}
    (h : Simulates slack S E V x y) (hf : ∀ a b, V a b → Simulates slack S E W (f a) (g b)) :
    Simulates slack S E W (x >>= f) (y >>= g) := by
  intro s t hS
  have hxy := h s t hS
  rw [RunOn.outcome_bind, RunOn.outcome_bind]
  generalize x.outcome s = r at hxy
  generalize y.outcome t = r' at hxy
  cases hxy with
  | ok hV hS' => exact hf _ _ hV _ _ hS'
  | error fault hE => exact .error fault hE
  | exhausted steps hslack => exact .exhausted steps hslack

end Simulates

namespace InStep

variable {σ τ : Type} [Host σ] [Host τ] {slack : Prop} {S E : σ → τ → Prop}
variable (L : InStep slack S E)
include L

theorem fail {α β : Type} {V : α → β → Prop} (fault : Fault) :
    Simulates slack S E V (throw fault : RunOn σ α) (throw fault) := by
  intro s t hS
  rw [RunOn.outcome_throw, RunOn.outcome_throw]
  exact .error fault (L.fails hS)

theorem lookup (name : String) :
    Simulates slack S E (Option.Rel Eq) (Run.lookup? name) (Run.lookup? name) := by
  intro s t hS
  rw [Run.outcome_lookup?, Run.outcome_lookup?, (L.alike hS).lookup? name]
  refine .ok ?_ hS
  cases (Host.machine s).lookup? name with
  | none => exact .none
  | some value => exact .some rfl

/-- Runs in a frame that the relation lets both sides push, and lets them pop again. -/
theorem inFrame {α β : Type} {V : α → β → Prop} {frame : Frame} {x : RunOn σ α} {y : RunOn τ β}
    (hpush : ∀ {s t}, S s t → (Host.machine s).calls.length < maxCallDepth →
      S (Host.change (fun m => { m with calls := frame :: m.calls }) s)
        (Host.change (fun m => { m with calls := frame :: m.calls }) t))
    (hpop : ∀ {s t}, S s t → S (Host.change (fun m => { m with calls := m.calls.tail }) s)
      (Host.change (fun m => { m with calls := m.calls.tail }) t))
    (hfailPop : ∀ {s t}, E s t → E (Host.change (fun m => { m with calls := m.calls.tail }) s)
      (Host.change (fun m => { m with calls := m.calls.tail }) t))
    (h : Simulates slack S E V x y) :
    Simulates slack S E V (Run.inFrame frame x) (Run.inFrame frame y) := by
  intro s t hS
  refine .inFrame ?_ (L.fails hS) (fun hfree => h _ _ (hpush hS hfree)) hpop hfailPop
  rw [(L.alike hS).calls]

theorem stepsLeft :
    Simulates slack S E (fun n m => n ≤ m ∧ (¬ slack → n = m)) Run.stepsLeft Run.stepsLeft := by
  intro s t hS
  have h := L.alike hS
  rw [Run.outcome_stepsLeft, Run.outcome_stepsLeft, h.spent]
  refine .ok ⟨Nat.sub_le_sub_right h.fuel_le _, fun hslack => ?_⟩ hS
  rw [h.fuel_eq hslack]

theorem exhausted {α β : Type} {V : α → β → Prop} :
    Simulates slack S E V (Run.exhausted : RunOn σ α) Run.exhausted := by
  intro s t hS
  rw [Run.outcome_exhausted, Run.outcome_exhausted]
  by_cases hslack : slack
  · exact .exhausted _ hslack
  · rw [(L.alike hS).fuel_eq hslack]
    exact .error _ (L.fails hS)

theorem tick (H : Lockstep.Levels S E) :
    Simulates slack S E Eq Run.tick Run.tick := by
  intro s t hS
  have h := L.alike hS
  have hfuel := h.fuel_le
  have hexpired : (Host.machine t).budget.hasExpired = (Host.machine s).budget.hasExpired := by
    unfold Budget.hasExpired
    rw [h.milliseconds]
  rw [Run.outcome_tick, Run.outcome_tick, h.spent, hexpired, h.milliseconds]
  by_cases hleft : (Host.machine s).budget.fuel < (Host.machine s).spent + 1
  · rw [if_pos hleft]
    by_cases hslack : slack
    · exact .exhausted _ hslack
    · rw [← h.fuel_eq hslack, if_pos hleft]
      exact .error _ (H.overspend hS)
  · -- what the left run can pay for the right one can pay for
    have hright : ¬ (Host.machine t).budget.fuel < (Host.machine s).spent + 1 := by omega
    rw [if_neg hleft, if_neg hright]
    split
    · exact .error _ (H.overspend hS)
    · exact .ok rfl (H.spend hS (by omega))

theorem deeper (H : Lockstep.Levels S E) {α β : Type} {V : α → β → Prop}
    {x : RunOn σ α} {y : RunOn τ β} (h : Simulates slack S E V x y) :
    Simulates slack S E V (Run.deeper x) (Run.deeper y) :=
  fun _ _ hS => .deeper (L.alike hS).depth (L.fails hS) (fun hfree => h _ _ (H.descend hS hfree))
    H.ascend H.failAscend

end InStep

namespace Lockstep

variable {σ τ : Type} [Host σ] [Host τ] {slack : Prop} {S E : σ → τ → Prop}
variable (L : Lockstep slack S E)
include L

theorem close (parameters : List String) (body : FunctionBody) :
    Simulates slack S E Eq (Run.close parameters body) (Run.close parameters body) := by
  intro s t hS
  rw [Run.outcome_close, Run.outcome_close, (L.alike hS).created, (L.alike hS).captured]
  exact .ok rfl (L.create hS)

/-- The coupling of runs in lockstep; values are equal at every stage, and every string literal and every
name is admitted. -/
def coupling : Coupling σ τ where
  Literal _ := True
  Name _ := True
  Val _ := Eq
  Rel n V := Simulates slack S E (V n)
  Rounds k m := k ≤ m ∧ (¬ slack → k = m)
  values := .eq
  later _ h := h
  pure := .pure
  bind h hf := h.bind fun a b => hf _ a b (Nat.le_refl _)
  fail fault := L.fail (.runtime fault)
  lookup {_ name} _ := L.lookup name
  assign {_ name a _} _ h := by
    subst h
    intro s t hS
    rw [Run.outcome_assign, Run.outcome_assign]
    exact .ok rfl (L.assign name a hS)
  declare name a b h := by
    subst h
    intro s t hS
    rw [Run.outcome_declare, Run.outcome_declare]
    exact .ok rfl (L.declare name a hS)
  close parameters body _ := L.close parameters body
  enter hf hargs h := by
    rw [(ValueMatch.eq.callFrame hf hargs).eq]
    exact L.inFrame (L.push _) L.pop L.failPop h
  stepsLeft := L.stepsLeft
  rounds_pred h := ⟨by omega, fun hslack => by have := h.2 hslack; omega⟩
  exhausted := L.exhausted
  exhausted_left h := by
    refine fun s t _ => .exhausted _ (Classical.byContradiction fun hslack => ?_)
    have := h.2 hslack
    omega
  exhausted_right h := by omega

/-- Lockstep that is kept on all levels holds for every tree. -/
theorem steps (H : Levels S E) : L.coupling.Steps where
  tick := L.tick H
  limit := L.fail (.recursionLimit maxDepth)
  deeper := L.deeper H

/-- It cannot tell the interpreters of the two hosts apart. -/
theorem interpreterOn (H : Levels S E) :
    L.coupling.Parts (Script.interpreterOn σ) (Script.interpreterOn τ) :=
  ⟨fun _ _ => .all, (L.steps H).interpreterOn⟩

end Lockstep

end SequenceNotation.Script
