import SequenceNotation.Proofs.Script.Lockstep

/-!
# Every point of a run

A journal holds a machine with all the machines that it was before.  An interpreter on journals runs in
lockstep with the one on bare machines, so what a journal has noted at the end are the points of the run.
No point of a run on a new machine lies beyond the limits.
-/

namespace SequenceNotation.Script

/-- A machine with all machines that it was before, the latest first. -/
structure Journal where
  now : Machine
  past : List Machine := []

instance : Host Journal where
  machine j := j.now
  change f j := ⟨f j.now, j.now :: j.past⟩
  machine_change _ _ := rfl

/-- The machine at every point up to now. -/
def Journal.points (j : Journal) : List Machine :=
  j.now :: j.past

/-- One step beyond the fuel at most is counted, no tree is evaluated deeper than `maxDepth`, and there
are at most `maxCallDepth` frames besides the global one. -/
structure Machine.WithinLimits (m : Machine) : Prop where
  spent : m.spent ≤ m.budget.fuel + 1
  depth : m.depth ≤ maxDepth
  frames : m.calls.length + 1 ≤ maxCallDepth + 1

/-- A run given for every host, as an interpreter gives it. -/
abbrev AnyRun (α : Type) := (σ : Type) → [Host σ] → RunOn σ α

/-- The run leads from the machine through points within the limits only.  What the journal notes is
the run itself: its result and its last machine are those of the run on the bare machine. -/
def AnyRun.StaysWithin {α : Type} (run : AnyRun α) (m : Machine) : Prop :=
  let journal := (run Journal).outcome ⟨m, []⟩
  (run Machine).outcome m = (journal.1, journal.2.now) ∧
    ∀ point ∈ journal.2.points, point.WithinLimits

/-- A journal that ends with the machine and has the property at all of its points. -/
structure Journal.Records (P : Machine → Prop) (j : Journal) (m : Machine) : Prop where
  now : j.now = m
  points : ∀ point ∈ j.points, P point

/-- While a run has no fault, it has not spent more than its fuel. -/
structure Journal.Runs (j : Journal) (m : Machine) : Prop
    extends j.Records Machine.WithinLimits m where
  spent : m.spent ≤ m.budget.fuel

theorem Machine.assign_eq (m : Machine) (name : String) (value : Value) :
    ∃ globals calls, m.assign name value = { m with globals, calls } ∧
      calls.length = m.calls.length := by
  unfold Machine.assign
  split
  · exact ⟨_, _, rfl, rfl⟩
  · split
    · exact ⟨_, _, rfl, rfl⟩
    · rename_i frame outer h _
      exact ⟨m.globals, _, rfl, by rw [h]; rfl⟩

theorem Machine.declare_eq (m : Machine) (name : String) (value : Value) :
    ∃ globals calls, m.declare name value = { m with globals, calls } ∧
      calls.length = m.calls.length := by
  unfold Machine.declare
  split
  · exact ⟨_, _, rfl, rfl⟩
  · rename_i frame outer h
    exact ⟨m.globals, _, rfl, by rw [h]; rfl⟩

namespace Journal

variable {P : Machine → Prop} {j : Journal} {m : Machine} {f : Machine → Machine}

theorem Records.change (h : j.Records P m) (hf : P (f m)) : Records P (Host.change f j) (f m) where
  now := congrArg f h.now
  points point hpoint := by
    cases hpoint with
    | head =>
      show P (f j.now)
      rw [h.now]
      exact hf
    | tail _ hpast => exact h.points point hpast

/-- The journal of a machine that has the property. -/
theorem records_new (h : P m) : Records P ⟨m, []⟩ m where
  now := rfl
  points point hpoint := by
    cases hpoint with
    | head => exact h
    | tail _ hpast => cases hpast

theorem Records.last (h : j.Records P m) : P m :=
  h.now ▸ h.points j.now (.head _)

/-- A change of variables and frames that adds no frame beyond the limit. -/
theorem Runs.change (h : j.Runs m) {globals : Frame} {calls : List Frame} {created : Nat}
    (hf : f m = { m with globals, calls, created }) (hcalls : calls.length ≤ maxCallDepth) :
    Runs (Host.change f j) (f m) where
  toRecords := h.toRecords.change (by
    rw [hf]
    exact ⟨h.last.spent, h.last.depth, Nat.succ_le_succ hcalls⟩)
  spent := by
    rw [hf]
    exact h.spent

theorem Records.calls_le (h : j.Records Machine.WithinLimits m) : m.calls.length ≤ maxCallDepth :=
  Nat.le_of_succ_le_succ h.last.frames

/-- A journal runs in lockstep with the bare machine. -/
theorem lockstep : Lockstep False Runs (Records Machine.WithinLimits) where
  alike {j m} h := h.now ▸ Machine.Alike.refl j.now
  fails h := h.toRecords
  assign {j m} name value h := by
    obtain ⟨globals, calls, heq, hlength⟩ := m.assign_eq name value
    exact h.change heq (hlength ▸ h.calls_le)
  declare {j m} name value h := by
    obtain ⟨globals, calls, heq, hlength⟩ := m.declare_eq name value
    exact h.change heq (hlength ▸ h.calls_le)
  create h := h.change (f := fun m => { m with created := m.created + 1 }) rfl h.calls_le
  push {j m} frame h hfree :=
    h.change (f := fun m => { m with calls := frame :: m.calls }) rfl (h.now ▸ hfree)
  pop {j m} h := h.change (f := fun m => { m with calls := m.calls.tail }) rfl (by
    have := h.calls_le
    rw [List.length_tail]
    omega)
  failPop {j m} h := h.change (f := fun m => { m with calls := m.calls.tail })
    ⟨h.last.spent, h.last.depth, by
      have := h.calls_le
      simp only [List.length_tail]
      omega⟩

theorem levels : Lockstep.Levels Runs (Records Machine.WithinLimits) where
  spend {j m} h hleft := by
    have hlt : m.spent < m.budget.fuel := h.now ▸ hleft
    refine ⟨h.toRecords.change (f := fun m => { m with spent := m.spent + 1 }) ?_, hlt⟩
    exact ⟨Nat.succ_le_succ h.spent, h.last.depth, h.last.frames⟩
  overspend h := h.toRecords.change (f := fun m => { m with spent := m.spent + 1 })
    ⟨Nat.succ_le_succ h.spent, h.last.depth, h.last.frames⟩
  descend {j m} h hfree := by
    refine ⟨h.toRecords.change (f := fun m => { m with depth := m.depth + 1 }) ?_, h.spent⟩
    exact ⟨h.last.spent, h.now ▸ hfree, h.last.frames⟩
  ascend {j m} h := by
    refine ⟨h.toRecords.change (f := fun m => { m with depth := m.depth - 1 }) ?_, h.spent⟩
    exact ⟨h.last.spent, Nat.le_trans (Nat.sub_le _ _) h.last.depth, h.last.frames⟩
  failAscend h := h.change (f := fun m => { m with depth := m.depth - 1 })
    ⟨h.last.spent, Nat.le_trans (Nat.sub_le _ _) h.last.depth, h.last.frames⟩

/-- The interpreter on journals and the one on bare machines. -/
theorem interpreterOn_parts :
    lockstep.coupling.Parts (interpreterOn Journal) (interpreterOn Machine) :=
  lockstep.interpreterOn levels

/-- The journal of a new machine. -/
theorem runs_new (budget : Budget) (created : Nat) :
    Runs ⟨{ budget, created }, []⟩ { budget, created } where
  toRecords := records_new ⟨Nat.zero_le _, Nat.zero_le _, Nat.succ_le_succ (Nat.zero_le _)⟩
  spent := Nat.zero_le _

end Journal

/-- What a journal records in lockstep, of a run on a new machine, stays within the limits. -/
theorem AnyRun.staysWithin_new {α : Type} {V : Nat → α → α → Prop} (run : AnyRun α)
    (h : Journal.lockstep.coupling.Rel 0 V (run Journal) (run Machine))
    (hV : ∀ a b, V 0 a b → a = b) (budget : Budget) (created : Nat) :
    run.StaysWithin { budget, created } := by
  have hrun := h _ _ (Journal.runs_new budget created)
  unfold AnyRun.StaysWithin
  generalize (run Journal).outcome _ = r at hrun ⊢
  generalize (run Machine).outcome _ = r' at hrun ⊢
  cases hrun with
  | ok hab hS => exact ⟨by rw [hV _ _ hab, hS.now], hS.points⟩
  | error fault hE => exact ⟨by rw [hE.now], hE.points⟩
  | exhausted steps hslack => exact hslack.elim

end SequenceNotation.Script
