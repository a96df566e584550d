import SequenceNotation.Proofs.Script.Frames
import SequenceNotation.Proofs.Script.Journal
import SequenceNotation.Proofs.Script.ValueInvariant

/-!
# Every value of a run

A ledger is a journal that also lists values.  An interpreter on ledgers that lists the value of every
expression it evaluates, at whatever depth, runs in step with the one on bare machines.  So what a ledger
holds at the end is all that a run has met: the variables at every point of it, and every value in between.
An invariant of values holds of them all, if it holds of what the run is given.
-/

namespace SequenceNotation.Script

/-- A journal with a list of values, the latest first. -/
structure Ledger where
  journal : Journal
  values : List Value := []

instance : Host Ledger where
  machine l := l.journal.now
  change f l := { l with journal := Host.change f l.journal }
  machine_change _ _ := rfl

/-- Puts a value on the list. -/
def Ledger.note (value : Value) : RunOn Ledger Unit :=
  modify fun l => { l with values := value :: l.values }

/-- The interpreter that lists the values of expressions. -/
def Interpreter.noting (p : Interpreter Ledger) : Interpreter Ledger where
  evaluate expression := do
    let value ← p.evaluate expression
    Ledger.note value
    return value
  execute := p.execute

/-- The interpreter for so many levels, which lists the values of expressions on all of them. -/
def notingLevels : Nat → Interpreter Ledger
  | 0 => .ofLevels 0
  | levels + 1 => (notingLevels levels).above.noting

/-- The interpreter for every tree, which lists the values of all expressions. -/
def notingInterpreter : Interpreter Ledger :=
  notingLevels maxDepth

/-- A ledger of a run up to the machine, of whose values `P` holds.  At each point it holds for the number
of functions created by then. -/
structure Ledger.Keeps (P : Nat → Value → Prop) (l : Ledger) (m : Machine) : Prop where
  journal : l.journal.Records (fun point => point.Holds (P point.created)) m
  values : ∀ value ∈ l.values, P m.created value

/-- Such a ledger when `n` functions have been created. -/
structure Ledger.KeepsAt (P : Nat → Value → Prop) (n : Nat) (l : Ledger) (m : Machine) : Prop
    extends l.Keeps P m where
  created : m.created = n

/-- From where `n` functions have been created the runs end alike, where there may be more. -/
def KeptFrom (P : Nat → Value → Prop) (n : Nat) {α β : Type} (V : Nat → α → β → Prop)
    (x : RunOn Ledger α) (y : Run β) : Prop :=
  ∀ l m, Ledger.KeepsAt P n l m →
    ∃ n', n ≤ n' ∧ Agree False (Ledger.KeepsAt P n') (Ledger.Keeps P) (V n') (x.outcome l) (y.outcome m)

theorem Machine.assign_created (m : Machine) (name : String) (value : Value) :
    (m.assign name value).created = m.created := by
  obtain ⟨globals, calls, h, -⟩ := m.assign_eq name value
  rw [h]

theorem Machine.declare_created (m : Machine) (name : String) (value : Value) :
    (m.declare name value).created = m.created := by
  obtain ⟨globals, calls, h, -⟩ := m.declare_eq name value
  rw [h]

namespace Ledger

variable {P : Nat → Value → Prop} {n : Nat} {l : Ledger} {m : Machine} {f : Machine → Machine}

theorem Keeps.machine (h : l.Keeps P m) : Host.machine l = m :=
  h.journal.now

theorem Keeps.holds (h : l.Keeps P m) : m.Holds (P m.created) :=
  h.journal.last

theorem KeepsAt.holds (h : KeepsAt P n l m) : m.Holds (P n) :=
  h.created ▸ h.toKeeps.holds

/-- A change that creates no function. -/
theorem Keeps.change (h : l.Keeps P m) (hcreated : (f m).created = m.created)
    (hf : (f m).Holds (P m.created)) : Keeps P (Host.change f l) (f m) where
  journal := h.journal.change (hcreated ▸ hf)
  values := hcreated ▸ h.values

theorem KeepsAt.change (h : KeepsAt P n l m) (hcreated : (f m).created = m.created)
    (hf : (f m).Holds (P n)) : KeepsAt P n (Host.change f l) (f m) where
  toKeeps := h.toKeeps.change hcreated (h.created ▸ hf)
  created := hcreated.trans h.created

/-- The bare machine is the one in the ledger. -/
theorem inStep : InStep False (KeepsAt P n) (Keeps P) where
  alike h := h.machine ▸ Machine.Alike.refl _
  fails h := h.toKeeps

/-- Steps and depth are not among the variables. -/
theorem levels (n : Nat) : Lockstep.Levels (KeepsAt P n) (Keeps P) where
  spend h _ := h.change (f := fun m => { m with spent := m.spent + 1 }) rfl ⟨h.holds.globals, h.holds.calls⟩
  overspend h := h.toKeeps.change (f := fun m => { m with spent := m.spent + 1 }) rfl
    ⟨h.toKeeps.holds.globals, h.toKeeps.holds.calls⟩
  descend h _ := h.change (f := fun m => { m with depth := m.depth + 1 }) rfl
    ⟨h.holds.globals, h.holds.calls⟩
  ascend h := h.change (f := fun m => { m with depth := m.depth - 1 }) rfl ⟨h.holds.globals, h.holds.calls⟩
  failAscend h := h.change (f := fun m => { m with depth := m.depth - 1 }) rfl
    ⟨h.holds.globals, h.holds.calls⟩

end Ledger

namespace KeptFrom

variable {P : Nat → Value → Prop} {n : Nat} {α β γ δ : Type}
variable {V : Nat → α → β → Prop} {W : Nat → γ → δ → Prop} {x : RunOn Ledger α} {y : Run β}

/-- Runs that create no function. -/
theorem of_simulates (h : Simulates False (Ledger.KeepsAt P n) (Ledger.Keeps P) (V n) x y) :
    KeptFrom P n V x y :=
  fun l m hl => ⟨n, Nat.le_refl _, h l m hl⟩

theorem bind {f : α → RunOn Ledger γ} {g : β → Run δ} (h : KeptFrom P n V x y)
    (hf : ∀ n' a b, n ≤ n' → V n' a b → KeptFrom P n' W (f a) (g b)) :
    KeptFrom P n W (x >>= f) (y >>= g) := by
  intro l m hl
  obtain ⟨n', hn, hxy⟩ := h l m hl
  rw [RunOn.outcome_bind, RunOn.outcome_bind]
  generalize x.outcome l = r at hxy
  generalize y.outcome m = r' at hxy
  cases hxy with
  | ok hV hS =>
    -- the rest goes on from as many functions as there are now
    obtain ⟨n'', hn', hrest⟩ := hf n' _ _ hn hV _ _ hS
    exact ⟨n'', Nat.le_trans hn hn', hrest⟩
  | error fault hE => exact ⟨n', hn, .error fault hE⟩
  | exhausted _ hslack => exact hslack.elim

theorem inFrame {frame : Frame} (hframe : ∀ p ∈ frame, P n p.2) (h : KeptFrom P n V x y) :
    KeptFrom P n V (Run.inFrame frame x) (Run.inFrame frame y) := by
  intro l m hl
  obtain ⟨n', hn, hxy⟩ := h _ _
    (hl.change (f := fun m => { m with calls := frame :: m.calls }) rfl (hl.holds.push hframe))
  have hcalls := congrArg List.length (Ledger.inStep.alike hl).calls
  refine ⟨n', hn, .inFrame hcalls hl.toKeeps (fun _ => hxy) (fun h => ?_) fun h => ?_⟩
  · exact h.change (f := fun m => { m with calls := m.calls.tail }) rfl h.holds.pop
  · exact h.change (f := fun m => { m with calls := m.calls.tail }) rfl h.holds.pop

theorem deeper (h : KeptFrom P n V x y) : KeptFrom P n V (Run.deeper x) (Run.deeper y) := by
  intro l m hl
  obtain ⟨n', hn, hxy⟩ := h _ _ (hl.change (f := fun m => { m with depth := m.depth + 1 }) rfl
    ⟨hl.holds.globals, hl.holds.calls⟩)
  exact ⟨n', hn, .deeper (Ledger.inStep.alike hl).depth hl.toKeeps (fun _ => hxy)
    (Ledger.levels n').ascend (Ledger.levels n').failAscend⟩

theorem lookup (name : String) : KeptFrom P n (fun n => Option.Rel (Both (P n)))
    (Run.lookup? name) (Run.lookup? name) := by
  refine .of_simulates fun l m hl => ?_
  rw [Run.outcome_lookup?, Run.outcome_lookup?, hl.machine]
  refine .ok ?_ hl
  show Option.Rel (Both (P n)) (m.lookup? name) (m.lookup? name)
  cases hvalue : m.lookup? name with
  | none => exact .none
  | some value => exact .some ⟨rfl, hl.holds.lookup? hvalue⟩

end KeptFrom

/-! ### The coupling of an invariant -/

namespace ValueInvariant

variable {Q : String → Prop} {P : Nat → Value → Prop} (hP : ValueInvariant Q P)
include hP

/-- A new function is the next one, with the variables on top captured. -/
theorem close {n : Nat} (parameters : List String) {body : FunctionBody}
    (hbody : ∀ t ∈ body.literals, Q t) :
    KeptFrom P n (fun n => Both (P n)) (Run.close parameters body) (Run.close parameters body) := by
  intro l m hl
  obtain rfl := hl.created
  have hlater (v : Value) : P m.created v → P (m.created + 1) v := hP.later (Nat.le_succ _)
  have hholds := hl.holds.mono hlater
  refine ⟨m.created + 1, Nat.le_succ _, ?_⟩
  rw [Run.outcome_close, Run.outcome_close, hl.machine]
  refine .ok ⟨rfl, hP.create hbody hl.holds.captured⟩ ⟨⟨?_, ?_⟩, rfl⟩
  · exact hl.journal.change (f := fun m => { m with created := m.created + 1 })
      ⟨hholds.globals, hholds.calls⟩
  · exact fun value hvalue => hlater value (hl.values value hvalue)

/-- Ledgers and bare machines in step, with the invariant on both sides. -/
def coupling : Coupling Ledger Machine where
  Literal := Q
  Name _ := True
  Val n := Both (P n)
  Rel n V := KeptFrom P n V
  Rounds k m := k ≤ m ∧ (¬ False → k = m)
  values := (hP.property _).values
  later hn h := ⟨h.1, hP.later hn h.2⟩
  pure h := .of_simulates (.pure h)
  bind := .bind
  fail fault := .of_simulates (Ledger.inStep.fail (.runtime fault))
  lookup {_ name} _ := .lookup name
  assign {_ name a _} _ hab := by
    obtain ⟨rfl, ha⟩ := hab
    exact .of_simulates fun l m hl =>
      .ok rfl (hl.change (m.assign_created name a) (hl.holds.assign name ha))
  declare name a b hab := by
    obtain ⟨rfl, ha⟩ := hab
    exact .of_simulates fun l m hl =>
      .ok rfl (hl.change (m.declare_created name a) (hl.holds.declare name ha))
  close parameters _ hbody := hP.close parameters hbody.literals
  enter hf hargs hxy := by
    obtain ⟨heq, hF⟩ := ((hP.property _).values.callFrame hf hargs).both
    rw [← heq]
    exact hxy.inFrame hF
  stepsLeft := .of_simulates Ledger.inStep.stepsLeft
  rounds_pred h := ⟨Nat.le_of_succ_le_succ h.1, fun hslack => Nat.succ.inj (h.2 hslack)⟩
  exhausted := .of_simulates Ledger.inStep.exhausted
  exhausted_left h := absurd (h.2 id) (Nat.succ_ne_zero _).symm
  exhausted_right h := absurd (h.2 id) (Nat.succ_ne_zero _)

theorem steps : hP.coupling.Steps where
  tick := KeptFrom.of_simulates (Ledger.inStep.tick (Ledger.levels _))
  limit := KeptFrom.of_simulates (Ledger.inStep.fail (.recursionLimit maxDepth))
  deeper h := KeptFrom.deeper h

/-- The value of an expression may be listed: the invariant holds of it, and the bare machine does not
notice. -/
theorem noting_parts {p : Interpreter Ledger} {q : Interpreter Machine}
    (h : hP.coupling.AdmittedParts p q) : hP.coupling.AdmittedParts p.noting q where
  evaluate {n expression} hlit := by
    have hnoted := hP.coupling.bind (n := n) (h.evaluate hlit) (W := hP.coupling.Val)
      (f := fun value => do Ledger.note value; return value) (g := fun value => return value) ?_
    · rwa [bind_pure] at hnoted
    · rintro n a _ - ⟨rfl, ha⟩
      refine KeptFrom.of_simulates fun l m hl => .ok ⟨rfl, ha⟩ ⟨⟨hl.journal, ?_⟩, hl.created⟩
      exact List.forall_mem_cons.2 ⟨hl.created ▸ ha, hl.values⟩
  execute hlit := h.execute hlit

theorem notingInterpreter_parts : hP.coupling.AdmittedParts notingInterpreter interpreter := by
  unfold notingInterpreter interpreter interpreterOn
  generalize maxDepth = levels
  induction levels with
  | zero => exact hP.steps.bottom
  | succ levels ih => exact hP.noting_parts (ih.above hP.steps)

end ValueInvariant

/-! ### Runs -/

/-- `P` holds of all that the ledger holds of a run from the machine: of the variables at every point of
it, and of every value in between; and `R` holds of the result.  The ledger tells of the run itself: the
result and the last machine are those of the run on the bare machine. -/
def StaysKept (P : Nat → Value → Prop) {α : Type} (R : Nat → α → Prop) (noted : RunOn Ledger α)
    (run : Run α) (m : Machine) : Prop :=
  let after := noted.outcome ⟨⟨m, []⟩, []⟩
  run.outcome m = (after.1, after.2.journal.now) ∧
    (∀ point ∈ after.2.journal.points, point.Holds (P point.created)) ∧
    (∀ value ∈ after.2.values, P after.2.journal.now.created value) ∧
    ∀ result, after.1 = .ok result → R after.2.journal.now.created result

section

variable {P : Nat → Value → Prop} {m : Machine}

theorem staysKept_of_kept {α : Type} {R : Nat → α → Prop} {V : Nat → α → α → Prop}
    {noted : RunOn Ledger α} {run : Run α} (h : KeptFrom P m.created V noted run)
    (hV : ∀ n a b, V n a b → a = b ∧ R n a) (hm : m.Holds (P m.created)) :
    StaysKept P R noted run m := by
  obtain ⟨n, -, hrun⟩ := h ⟨⟨m, []⟩, []⟩ m ⟨⟨Journal.records_new hm, by simp⟩, rfl⟩
  unfold StaysKept
  generalize noted.outcome _ = r at hrun ⊢
  generalize run.outcome m = r' at hrun ⊢
  cases hrun with
  | ok hab hS =>
    obtain ⟨rfl, ha⟩ := hV _ _ _ hab
    have hnow := hS.journal.now
    refine ⟨by rw [hnow], hS.journal.points, hnow ▸ hS.values, ?_⟩
    rintro _ ⟨⟩
    dsimp only
    rwa [hnow, hS.created]
  | error fault hS =>
    refine ⟨by rw [hS.journal.now], hS.journal.points, hS.journal.now ▸ hS.values, ?_⟩
    rintro _ ⟨⟩
  | exhausted _ hslack => exact hslack.elim

/-- An invariant that holds of all variables at the start is kept by expressions and programs with admitted
string literals, and by calls of functions with arguments of which it holds. -/
theorem ValueInvariant.runs {Q : String → Prop} (hP : ValueInvariant Q P) (hm : m.Holds (P m.created)) :
    (∀ expression : Expression, (∀ t ∈ expression.literals, Q t) →
      StaysKept P P (notingInterpreter.evaluate expression) (interpreter.evaluate expression) m) ∧
    (∀ program, (∀ t ∈ Statement.listLiterals program, Q t) →
      StaysKept P (fun n flow => flow.Holds (P n)) (notingInterpreter.executeAll program)
        (interpreter.executeAll program) m ∧
      StaysKept P P (notingInterpreter.bodyValue program) (interpreter.bodyValue program) m) ∧
    ∀ function arguments, P m.created function → (∀ value ∈ arguments, P m.created value) →
      StaysKept P P (notingInterpreter.call function arguments) (interpreter.call function arguments) m := by
  have h := hP.notingInterpreter_parts
  have hnames (names : List String) : ∀ name ∈ names, hP.coupling.Name name := fun _ _ => trivial
  refine ⟨fun expression hlit => ?_, fun program hlit => ⟨?_, ?_⟩, fun function arguments hf hargs => ?_⟩
  · exact staysKept_of_kept (h.evaluate ⟨hlit, hnames _⟩) (fun _ _ _ hab => hab) hm
  · exact staysKept_of_kept (h.executeAll ⟨hlit, hnames _⟩) (fun _ _ _ => Flow.holds_of_match) hm
  · exact staysKept_of_kept (h.bodyValue ⟨hlit, hnames _⟩) (fun _ _ _ hab => hab) hm
  · have hsame : List.Forall₂ (Both (P m.created)) arguments arguments :=
      List.forall₂_same.2 fun value hvalue => ⟨rfl, hargs value hvalue⟩
    exact staysKept_of_kept (h.call ⟨rfl, hf⟩ hsame) (fun _ _ _ hab => hab) hm

end

end SequenceNotation.Script
