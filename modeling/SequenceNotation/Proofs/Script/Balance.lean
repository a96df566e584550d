import SequenceNotation.Proofs.Script.Lockstep

/-!
# Balanced runs

Whatever a run does, and however it ends, it comes back to the depth and to the number of frames it began
with.  Of the frames it can have changed the global one and the one that was on top, and a call changes
not even the latter: it has a frame of its own on top.
-/

namespace SequenceNotation.Script

/-- Machines at the same depth with equally many frames, which differ in the global frame and the top frame
at most. -/
structure Machine.Balanced (m m' : Machine) : Prop where
  depth : m'.depth = m.depth
  frames : m'.calls.length = m.calls.length
  below : m'.calls.tail = m.calls.tail

namespace Machine.Balanced

variable {m m' m'' : Machine}

theorem refl (m : Machine) : m.Balanced m := ⟨rfl, rfl, rfl⟩

theorem trans (h : m.Balanced m') (h' : m'.Balanced m'') : m.Balanced m'' :=
  ⟨h'.depth.trans h.depth, h'.frames.trans h.frames, h'.below.trans h.below⟩

theorem assign (m : Machine) (name : String) (value : Value) :
    m.Balanced (m.assign name value) := by
  unfold Machine.assign
  split
  · exact ⟨rfl, rfl, rfl⟩
  · rename_i frame outer hcalls
    split
    · exact ⟨rfl, rfl, rfl⟩
    · exact ⟨rfl, by simp [hcalls], by simp [hcalls]⟩

theorem declare (m : Machine) (name : String) (value : Value) :
    m.Balanced (m.declare name value) := by
  unfold Machine.declare
  split
  · exact ⟨rfl, rfl, rfl⟩
  · rename_i frame outer hcalls
    exact ⟨rfl, by simp [hcalls], by simp [hcalls]⟩

/-- What is balanced above a new frame leaves all old frames alone. -/
theorem calls_of_push {frame : Frame} (h : Balanced { m with calls := frame :: m.calls } m') :
    m'.calls.tail = m.calls :=
  h.below

theorem pop {frame : Frame} (h : Balanced { m with calls := frame :: m.calls } m') :
    m.Balanced { m' with calls := m'.calls.tail } :=
  ⟨h.depth, congrArg List.length h.calls_of_push, congrArg List.tail h.calls_of_push⟩

theorem ascend (h : Balanced { m with depth := m.depth + 1 } m') :
    m.Balanced { m' with depth := m'.depth - 1 } :=
  ⟨congrArg (· - 1) h.depth, h.frames, h.below⟩

end Machine.Balanced

/-- One machine on both sides, balanced with the one at the start. -/
def BalancedFrom (start m m' : Machine) : Prop :=
  m = m' ∧ start.Balanced m

/-- From whatever machine, the runs end alike and balanced with it. -/
def Balances {α β : Type} (V : α → β → Prop) (x : Run α) (y : Run β) : Prop :=
  ∀ start, Simulates False (BalancedFrom start) (BalancedFrom start) V x y

namespace Balances

variable {α : Type} {V : α → α → Prop}

/-- A run is in step with itself, so that only its last machine is of interest. -/
theorem self (hV : ∀ a, V a a) {x : Run α}
    (h : ∀ m : Machine, m.Balanced (x.outcome m).2) : Balances V x x := by
  rintro start m _ ⟨rfl, hm⟩
  have hafter := hm.trans (h m)
  generalize x.outcome m = r at hafter
  obtain ⟨result, after⟩ := r
  cases result with
  | ok a => exact .ok (hV a) ⟨rfl, hafter⟩
  | error fault => exact .error fault ⟨rfl, hafter⟩

theorem unchanged (hV : ∀ a, V a a) {x : Run α} (h : ∀ m : Machine, (x.outcome m).2 = m) :
    Balances V x x :=
  self hV fun m => (h m).symm ▸ .refl m

theorem outcome {x : Run α} (h : Balances V x x) (m : Machine) : m.Balanced (x.outcome m).2 := by
  have hrun := h m m m ⟨rfl, .refl m⟩
  generalize x.outcome m = r at hrun
  cases hrun with
  | ok _ hS => exact hS.2
  | error _ hS => exact hS.2
  | exhausted _ hslack => exact hslack.elim

theorem fail {β : Type} {V : α → β → Prop} (fault : Fault) :
    Balances V (throw fault) (throw fault) := by
  rintro start m _ ⟨rfl, hm⟩
  rw [RunOn.outcome_throw, RunOn.outcome_throw]
  exact .error fault ⟨rfl, hm⟩

/-- Whatever the run does above its frame, the frames below are those it found. -/
theorem inFrame (frame : Frame) {x y : Run α} (h : Balances V x y) :
    Balances V (Run.inFrame frame x) (Run.inFrame frame y) := by
  rintro start m _ ⟨rfl, hm⟩
  have hpop {n n' : Machine} (hn : BalancedFrom { m with calls := frame :: m.calls } n n') :
      BalancedFrom start { n with calls := n.calls.tail } { n' with calls := n'.calls.tail } := by
    obtain ⟨rfl, hn⟩ := hn
    exact ⟨rfl, hm.trans hn.pop⟩
  exact .inFrame rfl ⟨rfl, hm⟩ (fun _ => h _ _ _ ⟨rfl, .refl _⟩) hpop hpop

theorem deeper {β : Type} {V : α → β → Prop} {x : Run α} {y : Run β} (h : Balances V x y) :
    Balances V (Run.deeper x) (Run.deeper y) := by
  rintro start m _ ⟨rfl, hm⟩
  have hup {n n' : Machine} (hn : BalancedFrom { m with depth := m.depth + 1 } n n') :
      BalancedFrom start { n with depth := n.depth - 1 } { n' with depth := n'.depth - 1 } := by
    obtain ⟨rfl, hn⟩ := hn
    exact ⟨rfl, hm.trans hn.ascend⟩
  exact .deeper rfl ⟨rfl, hm⟩ (fun _ => h _ _ _ ⟨rfl, .refl _⟩) hup hup

end Balances

/-- Balance as a coupling of a run with itself. -/
def balance : Coupling Machine Machine where
  Literal _ := True
  Name _ := True
  Val _ := Eq
  Rel n V := Balances (V n)
  Rounds := Eq
  values := .eq
  later _ h := h
  pure h _ := .pure h
  bind h hf start := (h start).bind fun a b hab => hf _ a b (Nat.le_refl _) hab start
  fail fault := .fail (.runtime fault)
  lookup _ := .unchanged (fun value => by cases value <;> constructor; rfl) fun _ => rfl
  assign {n name a b} _ h := by
    subst h
    exact .self (fun _ => rfl) fun m => .assign m name a
  declare name a b h := by
    subst h
    exact .self (fun _ => rfl) fun m => .declare m name a
  close parameters body _ := .self (fun _ => rfl) fun _ => ⟨rfl, rfl, rfl⟩
  enter hf hargs h := by
    rw [(ValueMatch.eq.callFrame hf hargs).eq]
    exact h.inFrame _
  stepsLeft := .unchanged (fun _ => rfl) fun _ => rfl
  rounds_pred := Nat.succ.inj
  exhausted {α β n V} := by
    rintro start m _ ⟨rfl, hm⟩
    exact .error _ ⟨rfl, hm⟩
  exhausted_left h := absurd h (Nat.succ_ne_zero _).symm
  exhausted_right h := absurd h (Nat.succ_ne_zero _)

theorem balance_steps : balance.Steps where
  tick := Balances.self (fun _ => rfl) fun m => by
    rw [Run.outcome_tick]
    exact ⟨rfl, rfl, rfl⟩
  limit := Balances.fail _
  deeper h := Balances.deeper h

/-- The interpreter in step with itself, balanced. -/
theorem balance_interpreter : balance.Parts interpreter interpreter :=
  ⟨fun _ _ => .all, balance_steps.interpreterOn⟩

/-- A call leaves the depth and all frames of its callers as they were. -/
theorem call_balanced (function : Value) (arguments : List Value) (m : Machine) :
    ((interpreter.call function arguments).outcome m).2.depth = m.depth ∧
      ((interpreter.call function arguments).outcome m).2.calls = m.calls := by
  cases function with
  | function identity parameters body captured =>
    rw [interpreter.call_function, Run.outcome_inFrame]
    split
    · exact ⟨rfl, rfl⟩
    · have hbody := (balance_interpreter.bodyRun body).outcome { m with
        calls := Interpreter.callFrame captured parameters arguments :: m.calls }
      exact ⟨hbody.depth, hbody.below⟩
  | _ => exact ⟨rfl, rfl⟩

/-- Runs are balanced, whether they end with a result or with a fault, and a call changes no frame but the
global one. -/
theorem runs_balanced (m : Machine) :
    (∀ expression, m.Balanced ((interpreter.evaluate expression).outcome m).2) ∧
    (∀ statement, m.Balanced ((interpreter.execute statement).outcome m).2) ∧
    ∀ function arguments,
      ((interpreter.call function arguments).outcome m).2.depth = m.depth ∧
        ((interpreter.call function arguments).outcome m).2.calls = m.calls := by
  refine ⟨fun expression => ?_, fun statement => ?_, fun function arguments => ?_⟩
  · exact (balance_interpreter.evaluate expression).outcome m
  · exact (balance_interpreter.execute statement).outcome m
  · exact call_balanced function arguments m

end SequenceNotation.Script
