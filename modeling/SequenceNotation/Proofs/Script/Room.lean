import SequenceNotation.Proofs.Script.Halting

/-!
# Runs with other limits

A run may end for want of time, steps or levels, and not for what it does.  On machines with variables that match, the
runs of a tree find the same unless one of them ends so; and where a run comes to an end, it does so with more room,
too.  Two computations have the same meaning if this holds between them, although they do not take the same steps.

What is known of the right one of two runs is granted: time and steps, or levels, or both, or nothing.  One statement
for every grant says both that two runs agree and that the right one lasts as long as the left one.
-/

namespace SequenceNotation.Script

/-- Which limits of a run are known to be wide enough. -/
structure Grant where
  steps : Prop
  levels : Prop

namespace Grant

def nothing : Grant := ⟨False, False⟩

def everything : Grant := ⟨True, True⟩

end Grant

/-- A fault for want of what is not granted.  The depth of calls is no such limit, since it is a matter of the frames. -/
inductive Fault.IsShortage (g : Grant) : Fault → Prop
  | timeout (hsteps : ¬g.steps) (milliseconds : Nat) : IsShortage g (.timeout milliseconds)
  | fuelExhausted (hsteps : ¬g.steps) (steps : Nat) : IsShortage g (.fuelExhausted steps)
  | recursionLimit (hlevels : ¬g.levels) : IsShortage g (.recursionLimit maxDepth)

/-- The less is granted, the more faults are shortages. -/
theorem Fault.IsShortage.of_nothing {g : Grant} {fault : Fault} (h : fault.IsShortage g) :
    fault.IsShortage .nothing := by
  cases h with
  | timeout _ milliseconds => exact .timeout id milliseconds
  | fuelExhausted _ steps => exact .fuelExhausted id steps
  | recursionLimit _ => exact .recursionLimit id

/-- The run has ended for want of time, steps or levels. -/
def RunsShort {α : Type} (after : Except Fault α × Machine) : Prop :=
  ∃ fault, after.1 = .error fault ∧ fault.IsShortage .nothing

theorem runsShort_error {α : Type} {fault : Fault} {m : Machine} :
    RunsShort ((.error fault, m) : Except Fault α × Machine) ↔ fault.IsShortage .nothing := by
  constructor
  · rintro ⟨_, ⟨⟩, hshort⟩
    exact hshort
  · exact fun hshort => ⟨fault, rfl, hshort⟩

theorem not_runsShort_of_isSome {α : Type} {after : Except Fault α × Machine} (h : after.1.toOption.isSome = true) :
    ¬RunsShort after := by
  rintro ⟨fault, hfault, -⟩
  rw [hfault] at h
  cases h

theorem not_runsShort_ok {α : Type} (a : α) (m : Machine) : ¬RunsShort (.ok a, m) := by
  rintro ⟨_, ⟨⟩, -⟩

/-- Steps and levels that one run needs more than another one. -/
structure Extra where
  steps : Nat
  levels : Nat

namespace Extra

def none : Extra := ⟨0, 0⟩

/-- The steps of two runs one after the other, and the levels of the one that goes deeper. -/
def andThen (a b : Extra) : Extra := ⟨a.steps + b.steps, max a.levels b.levels⟩

/-- A step and a level more. -/
def level (a : Extra) : Extra := ⟨a.steps + 1, a.levels + 1⟩

instance : LE Extra := ⟨fun a b => a.steps ≤ b.steps ∧ a.levels ≤ b.levels⟩

theorem none_andThen (a : Extra) : none.andThen a = a := by
  simp [none, andThen]

theorem none_le (a : Extra) : none ≤ a :=
  ⟨Nat.zero_le _, Nat.zero_le _⟩

theorem le_andThen (a b : Extra) : a ≤ a.andThen b :=
  ⟨Nat.le_add_right _ _, Nat.le_max_left _ _⟩

theorem le_andThen' (a b : Extra) : b ≤ a.andThen b :=
  ⟨Nat.le_add_left _ _, Nat.le_max_right _ _⟩

end Extra

/-- The right machine has time if this is granted, and as many steps as the left one and so many more. -/
structure Machine.Affords (g : Grant) (extra : Nat) (m m' : Machine) : Prop where
  time : g.steps → m'.budget.hasExpired = false
  steps : g.steps → m.budget.fuel - m.spent + extra ≤ m'.budget.fuel - m'.spent

/-- The right machine has what is granted: as many steps and levels as the left one, and so many more. -/
structure Machine.Roomier (g : Grant) (extra : Extra) (m m' : Machine) : Prop extends
    m.Affords g extra.steps m' where
  within : g.levels → m.depth ≤ maxDepth
  levels : g.levels → m'.depth + extra.levels ≤ m.depth

/-- What holds of two machines after runs from two others: their variables match, there are so many steps more on the
right one, and the depth and the number of frames are what they were. -/
structure Machine.After (g : Grant) (W : Machine → Machine → Prop) (more : Nat) (m m' n n' : Machine) : Prop where
  related : W n n'
  affords : n.Affords g more n'
  depth : n.depth = m.depth
  depth' : n'.depth = m'.depth
  frames : n.calls.length = m.calls.length

/-- Both runs end alike, the left one runs short, or the right one runs short of what is not granted. -/
inductive Keeps (g : Grant) (S : Machine → Machine → Prop) {α β : Type} (V : α → β → Prop) :
    Except Fault α × Machine → Except Fault β × Machine → Prop
  | ok {a b m m'} (hV : V a b) (hS : S m m') : Keeps g S V (.ok a, m) (.ok b, m')
  | error (fault) {m m'} (hS : S m m') : Keeps g S V (.error fault, m) (.error fault, m')
  | left {fault m r} (hshort : Fault.IsShortage .nothing fault) : Keeps g S V (.error fault, m) r
  | right {fault m r} (hshort : Fault.IsShortage g fault) : Keeps g S V r (.error fault, m)

/-- The right run keeps up with the left one, given so many steps and levels more.  What it is given beyond that is
left for what follows. -/
def KeepsUp (g : Grant) (W : Machine → Machine → Prop) (extra : Extra) {α β : Type} (V : α → β → Prop)
    (x : Run α) (y : Run β) : Prop :=
  ∀ more m m', W m m' → m.Roomier g ⟨more + extra.steps, extra.levels⟩ m' →
    Keeps g (Machine.After g W more m m') V (x.outcome m) (y.outcome m')

/-- A matching of variables that runs of admitted trees keep, whatever the limits are. -/
structure VariableMatch (Name : String → Prop) (Val : Value → Value → Prop) (W : Machine → Machine → Prop) :
    Prop where
  values : ValueMatch (fun _ => True) Name Val
  limits : ∀ {m m'} budget spent depth budget' spent' depth', W m m' →
    W { m with budget, spent, depth } { m' with budget := budget', spent := spent', depth := depth' }
  lookup : ∀ {m m' name}, W m m' → Name name → Option.Rel Val (m.lookup? name) (m'.lookup? name)
  assign : ∀ {m m' name a b}, W m m' → Name name → Val a b → W (m.assign name a) (m'.assign name b)
  declare : ∀ {m m'} name {a b}, W m m' → Val a b → W (m.declare name a) (m'.declare name b)
  create : ∀ {m m'}, W m m' → W { m with created := m.created + 1 } { m' with created := m'.created + 1 }
  close : ∀ {m m'} parameters {body : FunctionBody}, W m m' →
    Admitted (fun _ => True) Name body.literals body.names →
      Val (.function m.created parameters body m.captured) (.function m'.created parameters body m'.captured)
  frames : ∀ {m m'}, W m m' → m'.calls.length = m.calls.length
  push : ∀ {m m' i j parameters body F G xs ys}, W m m' →
    Val (.function i parameters body F) (.function j parameters body G) → List.Forall₂ Val xs ys →
      W { m with calls := Interpreter.callFrame F parameters xs :: m.calls }
        { m' with calls := Interpreter.callFrame G parameters ys :: m'.calls }
  pop : ∀ {m m' n n'}, W m m' → W n n' → n.calls.length = m.calls.length + 1 →
    W { n with calls := n.calls.tail } { n' with calls := n'.calls.tail }

namespace Machine

variable {g : Grant} {extra extra' : Extra} {m m' : Machine}

theorem Affords.mono {more more' : Nat} (h : m.Affords g more m') (hmore : more' ≤ more) : m.Affords g more' m' where
  time := h.time
  steps hsteps := Nat.le_trans (Nat.add_le_add_left hmore _) (h.steps hsteps)

theorem Roomier.mono (h : m.Roomier g extra m') (hextra : extra' ≤ extra) : m.Roomier g extra' m' where
  toAffords := h.toAffords.mono hextra.1
  within := h.within
  levels hlevels := Nat.le_trans (Nat.add_le_add_left hextra.2 _) (h.levels hlevels)

/-- Nothing has to be said of limits that are not granted. -/
theorem Roomier.nothing (m m' : Machine) : m.Roomier .nothing extra m' :=
  ⟨⟨False.elim, False.elim⟩, False.elim, False.elim⟩

end Machine

/-! ### Steps and levels -/

section Shortage

variable {g : Grant} {m : Machine}

/-- A step is spent, or it is refused for want of what is not granted. -/
theorem tick_cases (htime : g.steps → m.budget.hasExpired = false) (hsteps : g.steps → m.spent < m.budget.fuel) :
    (∃ fault after, fault.IsShortage g ∧ Run.tick.outcome m = (.error fault, after)) ∨
      m.spent < m.budget.fuel ∧ Run.tick.outcome m = (.ok (), { m with spent := m.spent + 1 }) := by
  have htick := Run.outcome_tick m
  split at htick
  · rename_i hfuel
    exact .inl ⟨_, _, .fuelExhausted (fun hg => Nat.lt_irrefl _ (Nat.lt_of_lt_of_le hfuel (hsteps hg))) _, htick⟩
  · rename_i hfuel
    split at htick
    · rename_i hexpired
      refine .inl ⟨_, _, .timeout (fun hg => ?_) _, htick⟩
      cases (htime hg).symm.trans hexpired.2
    · exact .inr ⟨Nat.lt_of_not_le fun hle => hfuel (Nat.lt_succ_of_le hle), htick⟩

def Machine.descend (m : Machine) : Machine :=
  { m with depth := m.depth + 1 }

def Machine.ascend (m : Machine) : Machine :=
  { m with depth := m.depth - 1 }

/-- A run goes one level deeper, or is refused that if levels are not granted. -/
theorem deeper_cases {α : Type} (x : Run α) (hlevels : g.levels → m.depth < maxDepth) :
    (∃ fault after, fault.IsShortage g ∧ (Run.deeper x).outcome m = (.error fault, after)) ∨
      m.depth < maxDepth ∧
        (Run.deeper x).outcome m = ((x.outcome m.descend).1, (x.outcome m.descend).2.ascend) := by
  have hdeeper := Run.outcome_deeper x m
  split at hdeeper
  · rename_i hfull
    exact .inl ⟨_, _, .recursionLimit fun hg => Nat.lt_irrefl _ (Nat.lt_of_lt_of_le (hlevels hg) hfull), hdeeper⟩
  · rename_i hfree
    exact .inr ⟨Nat.lt_of_not_le hfree, hdeeper⟩

end Shortage

namespace Keeps

variable {g : Grant} {S S' : Machine → Machine → Prop} {α β : Type} {V V' : α → β → Prop}
  {r : Except Fault α × Machine} {r' : Except Fault β × Machine}

/-- What is done to the machines after two runs, however they have ended. -/
theorem leave (h : Keeps g S V r r') (f f' : Machine → Machine) (hS : ∀ m m', S m m' → S' (f m) (f' m')) :
    Keeps g S' V (r.1, f r.2) (r'.1, f' r'.2) := by
  cases h with
  | ok h h' => exact .ok h (hS _ _ h')
  | error fault h => exact .error fault (hS _ _ h)
  | left hshort => exact .left hshort
  | right hshort => exact .right hshort

theorem mono (h : Keeps g S V r r') (hS : ∀ m m', S m m' → S' m m') : Keeps g S' V r r' :=
  h.leave id id hS

theorem weaken (h : Keeps g S V r r') (hV : ∀ a b, V a b → V' a b) : Keeps g S V' r r' := by
  cases h with
  | ok h h' => exact .ok (hV _ _ h) h'
  | error fault h => exact .error fault h
  | left hshort => exact .left hshort
  | right hshort => exact .right hshort

/-- Runs of which neither ends short end alike. -/
theorem ends_alike (h : Keeps g S V r r') (hleft : ¬RunsShort r) (hright : ¬RunsShort r') :
    ((∃ a b, r.1 = .ok a ∧ r'.1 = .ok b ∧ V a b) ∨ ∃ fault, r.1 = .error fault ∧ r'.1 = .error fault) ∧
      S r.2 r'.2 := by
  cases h with
  | ok hV hS => exact ⟨.inl ⟨_, _, rfl, rfl, hV⟩, hS⟩
  | error fault hS => exact ⟨.inr ⟨fault, rfl, rfl⟩, hS⟩
  | left hshort => exact absurd ⟨_, rfl, hshort⟩ hleft
  | right hshort => exact absurd ⟨_, rfl, hshort.of_nothing⟩ hright

/-- With everything granted the right run does not end short unless the left one does. -/
theorem lasts (h : Keeps .everything S V r r') (hleft : ¬RunsShort r) : ¬RunsShort r' := by
  rintro ⟨fault, hfault, hshort⟩
  cases h with
  | ok => cases hfault
  | error fault' =>
    cases hfault
    exact hleft ⟨_, rfl, hshort⟩
  | left hshort => exact hleft ⟨_, rfl, hshort⟩
  | right hnone =>
    cases hnone with
    | timeout hsteps => exact hsteps trivial
    | fuelExhausted hsteps => exact hsteps trivial
    | recursionLimit hlevels => exact hlevels trivial

end Keeps

namespace KeepsUp

variable {g : Grant} {W : Machine → Machine → Prop} {extra extra' : Extra} {α β γ δ : Type}
  {V : α → β → Prop} {V' : γ → δ → Prop} {x : Run α} {y : Run β}

theorem mono (h : KeepsUp g W extra V x y) (hextra : extra ≤ extra') : KeepsUp g W extra' V x y :=
  fun more m m' hW hroom => h more m m' hW (hroom.mono ⟨Nat.add_le_add_left hextra.1 more, hextra.2⟩)

theorem pure {a : α} {b : β} (h : V a b) : KeepsUp g W .none V (pure a) (pure b) :=
  fun _ _ _ hW hroom => .ok h ⟨hW, hroom.toAffords, rfl, rfl, rfl⟩

theorem fail (fault : Fault) : KeepsUp g W .none V (throw fault) (throw fault) :=
  fun _ _ _ hW hroom => .error fault ⟨hW, hroom.toAffords, rfl, rfl, rfl⟩

theorem weaken {V' : α → β → Prop} (h : KeepsUp g W extra V x y) (hV : ∀ a b, V a b → V' a b) :
    KeepsUp g W extra V' x y :=
  fun more m m' hW hroom => (h more m m' hW hroom).weaken hV

theorem bind {f : α → Run γ} {f' : β → Run δ} (h : KeepsUp g W extra V x y)
    (hf : ∀ a b, V a b → KeepsUp g W extra' V' (f a) (f' b)) :
    KeepsUp g W (extra.andThen extra') V' (x >>= f) (y >>= f') := by
  intro more m m' hW hroom
  -- The first part leaves the steps untouched that the second needs; levels are given back, so the larger need counts.
  have hsteps : more + extra'.steps + extra.steps ≤ more + (extra.steps + extra'.steps) := by omega
  have hxy := h (more + extra'.steps) m m' hW (hroom.mono ⟨hsteps, Nat.le_max_left _ _⟩)
  rw [RunOn.outcome_bind, RunOn.outcome_bind]
  generalize x.outcome m = r at hxy
  generalize y.outcome m' = r' at hxy
  cases hxy with
  | ok hV hS =>
    rename_i n n'
    have hroom' : n.Roomier g ⟨more + extra'.steps, extra'.levels⟩ n' := by
      refine ⟨hS.affords, ?_, fun hg => ?_⟩
      · rw [hS.depth]
        exact hroom.within
      · rw [hS.depth, hS.depth']
        exact Nat.le_trans (Nat.add_le_add_left (Nat.le_max_right _ _) _) (hroom.levels hg)
    refine (hf _ _ hV more n n' hS.related hroom').mono fun o o' ho => ?_
    exact ⟨ho.related, ho.affords, ho.depth.trans hS.depth, ho.depth'.trans hS.depth', ho.frames.trans hS.frames⟩
  | error fault hS =>
    exact .error fault ⟨hS.related, hS.affords.mono (Nat.le_add_right _ _), hS.depth, hS.depth', hS.frames⟩
  | left hshort => exact .left hshort
  | right hshort => exact .right hshort

end KeepsUp

namespace VariableMatch

variable {Name : String → Prop} {Val : Value → Value → Prop} {W : Machine → Machine → Prop}
  (hW : VariableMatch Name Val W) {g : Grant} {extra : Extra} {α β : Type} {V : α → β → Prop} {x : Run α} {y : Run β}
include hW

/-! #### On both sides -/

theorem tick : KeepsUp g W .none Eq Run.tick Run.tick := by
  intro more m m' hm hroom
  obtain ⟨fault, after, hshort, hleft⟩ | ⟨hfuel, hleft⟩ := @tick_cases .nothing m False.elim False.elim
  · rw [hleft]
    exact .left hshort
  · have hsteps (hg : g.steps) : m'.spent < m'.budget.fuel := by
      have hpay : m.budget.fuel - m.spent + more ≤ m'.budget.fuel - m'.spent := hroom.steps hg
      omega
    obtain ⟨fault, after, hshort, hright⟩ | ⟨hfuel', hright⟩ := tick_cases hroom.time hsteps
    · rw [hright]
      exact .right hshort
    · rw [hleft, hright]
      refine .ok rfl ⟨hW.limits _ _ _ _ _ _ hm, ⟨hroom.time, fun hg => ?_⟩, rfl, rfl, rfl⟩
      have hpay : m.budget.fuel - m.spent + more ≤ m'.budget.fuel - m'.spent := hroom.steps hg
      show m.budget.fuel - (m.spent + 1) + more ≤ m'.budget.fuel - (m'.spent + 1)
      omega

theorem deeper (h : KeepsUp g W extra V x y) : KeepsUp g W extra V (Run.deeper x) (Run.deeper y) := by
  intro more m m' hm hroom
  obtain ⟨fault, after, hshort, hleft⟩ | ⟨hdepth, hleft⟩ := @deeper_cases .nothing m _ x False.elim
  · rw [hleft]
    exact .left hshort
  · have hlevels (hg : g.levels) : m'.depth < maxDepth := by
      have hdeep : m'.depth + extra.levels ≤ m.depth := hroom.levels hg
      omega
    obtain ⟨fault, after, hshort, hright⟩ | ⟨hdepth', hright⟩ := deeper_cases y hlevels
    · rw [hright]
      exact .right hshort
    · have hroom' : m.descend.Roomier g ⟨more + extra.steps, extra.levels⟩ m'.descend :=
        ⟨⟨hroom.time, hroom.steps⟩, fun _ => hdepth, fun hg => by
          have hdeep : m'.depth + extra.levels ≤ m.depth := hroom.levels hg
          show m'.depth + 1 + extra.levels ≤ m.depth + 1
          omega⟩
      rw [hleft, hright]
      refine (h more _ _ (hW.limits _ _ _ _ _ _ hm) hroom').leave Machine.ascend Machine.ascend fun n n' hn => ?_
      exact ⟨hW.limits _ _ _ _ _ _ hn.related, ⟨hn.affords.time, hn.affords.steps⟩, congrArg (· - 1) hn.depth,
        congrArg (· - 1) hn.depth', hn.frames⟩

/-! #### On one side -/

theorem tickLeft : KeepsUp g W .none Eq Run.tick (pure ()) := by
  intro more m m' hm hroom
  obtain ⟨fault, after, hshort, hleft⟩ | ⟨hfuel, hleft⟩ := @tick_cases .nothing m False.elim False.elim
  · rw [hleft]
    exact .left hshort
  · rw [hleft]
    refine .ok rfl ⟨hW.limits _ _ _ _ _ _ hm, ⟨hroom.time, fun hg => ?_⟩, rfl, rfl, rfl⟩
    have hpay : m.budget.fuel - m.spent + more ≤ m'.budget.fuel - m'.spent := hroom.steps hg
    show m.budget.fuel - (m.spent + 1) + more ≤ m'.budget.fuel - m'.spent
    omega

theorem tickRight : KeepsUp g W ⟨1, 0⟩ Eq (pure ()) Run.tick := by
  intro more m m' hm hroom
  have hsteps (hg : g.steps) : m'.spent < m'.budget.fuel := by
    have hpay : m.budget.fuel - m.spent + (more + 1) ≤ m'.budget.fuel - m'.spent := hroom.steps hg
    omega
  obtain ⟨fault, after, hshort, hright⟩ | ⟨hfuel', hright⟩ := tick_cases hroom.time hsteps
  · rw [hright]
    exact .right hshort
  · rw [hright]
    refine .ok rfl ⟨hW.limits _ _ _ _ _ _ hm, ⟨hroom.time, fun hg => ?_⟩, rfl, rfl, rfl⟩
    have hpay : m.budget.fuel - m.spent + (more + 1) ≤ m'.budget.fuel - m'.spent := hroom.steps hg
    show m.budget.fuel - m.spent + more ≤ m'.budget.fuel - (m'.spent + 1)
    omega

theorem deeperLeft (h : KeepsUp g W extra V x y) : KeepsUp g W extra V (Run.deeper x) y := by
  intro more m m' hm hroom
  obtain ⟨fault, after, hshort, hleft⟩ | ⟨hdepth, hleft⟩ := @deeper_cases .nothing m _ x False.elim
  · rw [hleft]
    exact .left hshort
  · have hroom' : m.descend.Roomier g ⟨more + extra.steps, extra.levels⟩ m' :=
      ⟨⟨hroom.time, hroom.steps⟩, fun _ => hdepth, fun hg => Nat.le_succ_of_le (hroom.levels hg)⟩
    rw [hleft]
    refine (h more _ _ (hW.limits _ _ _ _ _ _ hm) hroom').leave Machine.ascend id fun n n' hn => ?_
    exact ⟨hW.limits _ _ _ _ _ _ hn.related, ⟨hn.affords.time, hn.affords.steps⟩, congrArg (· - 1) hn.depth,
      hn.depth', hn.frames⟩

theorem deeperRight (h : KeepsUp g W extra V x y) :
    KeepsUp g W ⟨extra.steps, extra.levels + 1⟩ V x (Run.deeper y) := by
  intro more m m' hm hroom
  have hlevels (hg : g.levels) : m'.depth < maxDepth := by
    have hdeep : m'.depth + (extra.levels + 1) ≤ m.depth := hroom.levels hg
    have := hroom.within hg
    omega
  obtain ⟨fault, after, hshort, hright⟩ | ⟨hdepth', hright⟩ := deeper_cases y hlevels
  · rw [hright]
    exact .right hshort
  · have hroom' : m.Roomier g ⟨more + extra.steps, extra.levels⟩ m'.descend :=
      ⟨⟨hroom.time, hroom.steps⟩, hroom.within, fun hg => by
        have hdeep : m'.depth + (extra.levels + 1) ≤ m.depth := hroom.levels hg
        show m'.depth + 1 + extra.levels ≤ m.depth
        omega⟩
    rw [hright]
    refine (h more _ _ (hW.limits _ _ _ _ _ _ hm) hroom').leave id Machine.ascend fun n n' hn => ?_
    exact ⟨hW.limits _ _ _ _ _ _ hn.related, ⟨hn.affords.time, hn.affords.steps⟩, hn.depth,
      congrArg (· - 1) hn.depth', hn.frames⟩

/-- What a level of trees costs may stand on either side. -/
theorem levelLeft (h : KeepsUp g W extra V x y) : KeepsUp g W extra V (do Run.tick; Run.deeper x) y :=
  extra.none_andThen ▸ hW.tickLeft.bind fun _ _ _ => hW.deeperLeft h

theorem levelRight (h : KeepsUp g W extra V x y) : KeepsUp g W extra.level V x (do Run.tick; Run.deeper y) :=
  (hW.tickRight.bind fun _ _ _ => hW.deeperRight h).mono
    ⟨Nat.le_of_eq (Nat.add_comm _ _), Nat.le_of_eq (Nat.zero_max _)⟩

/-! ### The coupling of variables -/

theorem inFrame {V : Value → Value → Prop} {x y : Run Value} {i j : Nat} {parameters : List String}
    {body : FunctionBody} {F G : Frame} {xs ys : List Value}
    (hf : Val (.function i parameters body F) (.function j parameters body G)) (hargs : List.Forall₂ Val xs ys)
    (h : KeepsUp g W .none V x y) :
    KeepsUp g W .none V (Run.inFrame (Interpreter.callFrame F parameters xs) x)
      (Run.inFrame (Interpreter.callFrame G parameters ys) y) := by
  intro more m m' hm hroom
  rw [Run.outcome_inFrame, Run.outcome_inFrame]
  have hcalls : (Host.machine m').calls.length = (Host.machine m).calls.length := hW.frames hm
  rw [hcalls]
  by_cases hfull : maxCallDepth ≤ (Host.machine m).calls.length
  · rw [if_pos hfull, if_pos hfull]
    exact .error _ ⟨hm, hroom.toAffords, rfl, rfl, rfl⟩
  · rw [if_neg hfull, if_neg hfull]
    refine (h more _ _ (hW.push hm hf hargs) ⟨⟨hroom.time, hroom.steps⟩, hroom.within, hroom.levels⟩).leave
      (fun m => { m with calls := m.calls.tail }) (fun m => { m with calls := m.calls.tail }) fun n n' hn => ?_
    exact ⟨hW.pop hm hn.related hn.frames, ⟨hn.affords.time, hn.affords.steps⟩, hn.depth, hn.depth',
      List.length_tail.trans (congrArg (· - 1) hn.frames)⟩

/-- Runs on machines with matching variables keep up with each other. -/
def coupling (g : Grant) : Coupling Machine Machine where
  Literal _ := True
  Name := Name
  Val _ := Val
  Rel n V := KeepsUp g W .none (V n)
  Rounds k k' := g.steps → k ≤ k'
  values := hW.values
  later _ h := h
  pure := .pure
  bind h hf := h.bind fun a b => hf _ a b (Nat.le_refl _)
  fail fault := .fail (.runtime fault)
  lookup hname _ _ _ hm hroom := .ok (hW.lookup hm hname) ⟨hm, hroom.toAffords, rfl, rfl, rfl⟩
  assign {n name a b} hname hab := by
    intro more m m' hm hroom
    obtain ⟨_, _, heq, hframes⟩ := m.assign_eq name a
    obtain ⟨_, _, heq', -⟩ := m'.assign_eq name b
    have hafter := hW.assign hm hname hab
    rw [Run.outcome_assign, Run.outcome_assign]
    show Keeps _ _ _ (_, m.assign name a) (_, m'.assign name b)
    rw [heq, heq'] at hafter ⊢
    exact .ok rfl ⟨hafter, ⟨hroom.time, hroom.steps⟩, rfl, rfl, hframes⟩
  declare name a b hab := by
    intro more m m' hm hroom
    obtain ⟨_, _, heq, hframes⟩ := m.declare_eq name a
    obtain ⟨_, _, heq', -⟩ := m'.declare_eq name b
    have hafter := hW.declare name hm hab
    rw [Run.outcome_declare, Run.outcome_declare]
    show Keeps _ _ _ (_, m.declare name a) (_, m'.declare name b)
    rw [heq, heq'] at hafter ⊢
    exact .ok rfl ⟨hafter, ⟨hroom.time, hroom.steps⟩, rfl, rfl, hframes⟩
  close parameters _ hbody _ _ _ hm hroom :=
    .ok (hW.close parameters hm hbody)
      ⟨hW.create hm, ⟨hroom.time, hroom.steps⟩, rfl, rfl, rfl⟩
  enter hf hargs h := hW.inFrame hf hargs h
  stepsLeft _ _ _ hm hroom :=
    .ok (fun hg => Nat.le_trans (Nat.le_add_right _ _) (hroom.steps hg)) ⟨hm, hroom.toAffords, rfl, rfl, rfl⟩
  rounds_pred h hg := Nat.le_of_succ_le_succ (h hg)
  exhausted _ _ _ _ _ := .left (.fuelExhausted id _)
  exhausted_left _ _ _ _ _ _ := .left (.fuelExhausted id _)
  exhausted_right h _ _ _ _ _ := .right (.fuelExhausted (fun hg => Nat.not_succ_le_zero _ (h hg)) _)

theorem interpreter_parts (g : Grant) : (hW.coupling g).AdmittedParts interpreter interpreter :=
  Coupling.Steps.interpreterOn
    { tick := hW.tick
      limit := .fail _
      deeper := hW.deeper }

end VariableMatch

end SequenceNotation.Script
