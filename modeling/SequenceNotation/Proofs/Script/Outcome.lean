import SequenceNotation.Script.Machine

/-!
# Outcomes of runs

What every primitive of a run does, as an equation for its outcome: the result or fault it ends with, and
the state it leaves.  Proofs about runs rewrite with these equations and never open the monad.
-/

namespace SequenceNotation.Script

namespace RunOn

variable {σ α β : Type}

@[simp] theorem outcome_pure (a : α) (s : σ) :
    outcome (pure a : RunOn σ α) s = (.ok a, s) := rfl

@[simp] theorem outcome_throw (fault : Fault) (s : σ) :
    outcome (throw fault : RunOn σ α) s = (.error fault, s) := rfl

/-- A sequence goes on from where its first part ends, and stops there if that fails. -/
theorem outcome_bind (x : RunOn σ α) (f : α → RunOn σ β) (s : σ) :
    outcome (x >>= f) s =
      match outcome x s with
      | (.ok a, t) => outcome (f a) t
      | (.error fault, t) => (.error fault, t) := by
  unfold outcome ExceptT.run StateT.run
  simp only [bind, ExceptT.bind, ExceptT.mk, StateT.bind]
  cases h : x s with
  | mk result t => cases result <;> rfl

theorem outcome_bind_ok {x : RunOn σ α} {f : α → RunOn σ β} {s t : σ} {a : α}
    (h : outcome x s = (.ok a, t)) : outcome (x >>= f) s = outcome (f a) t := by
  rw [outcome_bind, h]

theorem outcome_bind_error {x : RunOn σ α} {f : α → RunOn σ β} {s t : σ} {fault : Fault}
    (h : outcome x s = (.error fault, t)) : outcome (x >>= f) s = (.error fault, t) := by
  rw [outcome_bind, h]

/-- Two computations are one when they have the same outcome from every state. -/
theorem ext_outcome {x y : RunOn σ α} (h : ∀ s, outcome x s = outcome y s) : x = y :=
  funext h

end RunOn

namespace Run

open RunOn (outcome outcome_bind outcome_bind_ok)

variable {σ α : Type} [Host σ]

@[simp] theorem outcome_machine (s : σ) :
    outcome machine s = (.ok (Host.machine s), s) := rfl

@[simp] theorem outcome_change (f : Machine → Machine) (s : σ) :
    outcome (change f) s = (.ok (), Host.change f s) := rfl

@[simp] theorem outcome_stepsLeft (s : σ) :
    outcome stepsLeft s =
      (.ok ((Host.machine s).budget.fuel - (Host.machine s).spent), s) := rfl

@[simp] theorem outcome_exhausted (s : σ) :
    outcome (exhausted : RunOn σ α) s =
      (.error (.fuelExhausted (Host.machine s).budget.fuel), s) := rfl

@[simp] theorem outcome_lookup? (name : String) (s : σ) :
    outcome (lookup? name) s = (.ok ((Host.machine s).lookup? name), s) := rfl

@[simp] theorem outcome_assign (name : String) (value : Value) (s : σ) :
    outcome (assign name value) s = (.ok (), Host.change (·.assign name value) s) := rfl

@[simp] theorem outcome_declare (name : String) (value : Value) (s : σ) :
    outcome (declare name value) s = (.ok (), Host.change (·.declare name value) s) := rfl

@[simp] theorem outcome_close (parameters : List String) (body : FunctionBody) (s : σ) :
    outcome (close parameters body) s =
      (.ok (.function (Host.machine s).created parameters body (Host.machine s).captured),
        Host.change (fun m => { m with created := m.created + 1 }) s) := rfl

/-- A step is counted before it is refused, and the fuel is looked at before the clock. -/
theorem outcome_tick (s : σ) :
    outcome tick s =
      (if (Host.machine s).budget.fuel < (Host.machine s).spent + 1 then
          .error (.fuelExhausted (Host.machine s).budget.fuel)
        else if ((Host.machine s).spent + 1) % clockInterval = 0 ∧
            (Host.machine s).budget.hasExpired then
          .error (.timeout (Host.machine s).budget.milliseconds)
        else .ok (),
        Host.change (fun m => { m with spent := m.spent + 1 }) s) := by
  have hm : Host.machine (Host.change (fun m => { m with spent := m.spent + 1 }) s) =
      { Host.machine s with spent := (Host.machine s).spent + 1 } := Host.machine_change _ _
  unfold tick
  rw [outcome_bind_ok (outcome_change _ _), outcome_bind_ok (outcome_machine _), hm]
  dsimp only
  split
  · rfl
  · split <;> rfl

theorem outcome_deeper (run : RunOn σ α) (s : σ) :
    outcome (deeper run) s =
      if maxDepth ≤ (Host.machine s).depth then (.error (.recursionLimit maxDepth), s)
      else
        let after := outcome run (Host.change (fun m => { m with depth := m.depth + 1 }) s)
        (after.1, Host.change (fun m => { m with depth := m.depth - 1 }) after.2) := rfl

theorem outcome_inFrame (frame : Frame) (run : RunOn σ α) (s : σ) :
    outcome (inFrame frame run) s =
      if maxCallDepth ≤ (Host.machine s).calls.length then
        (.error (.recursionLimit maxCallDepth), s)
      else
        let after := outcome run (Host.change (fun m => { m with calls := frame :: m.calls }) s)
        (after.1, Host.change (fun m => { m with calls := m.calls.tail }) after.2) := rfl

end Run

end SequenceNotation.Script
