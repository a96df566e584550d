import SequenceNotation.Proofs.Script.Halting
import SequenceNotation.Proofs.Script.Numbering

/-!
# Lexical scope

A called function has a frame of its own, with the variables it captured and its parameters, and sees
nothing else but the global frame.  So a call from two machines with the same globals goes alike in both,
whatever frames lie below it: two runs of the body read and write the frame on top and the globals only,
and a call within the body puts another frame on top of both.

The limits of a run are left aside.  Where one of the two runs meets one, nothing is said.
-/

namespace SequenceNotation.Script

/-- Whether a fault is a limit of the run and not a fault of what is run. -/
def Fault.isLimit : Fault → Bool
  | timeout _ | fuelExhausted _ | recursionLimit _ => true
  | _ => false

/-- Both runs end alike, in states related by `S` after a result and by `E` after a fault, unless one of
them meets a limit. -/
inductive EndsAlike {σ τ : Type} (S E : σ → τ → Prop) {α β : Type} (V : α → β → Prop) :
    Except Fault α × σ → Except Fault β × τ → Prop
  | ok {a b s t} (hV : V a b) (hS : S s t) : EndsAlike S E V (.ok a, s) (.ok b, t)
  | error (fault : RuntimeFault) {s t} (hE : E s t) :
    EndsAlike S E V (.error (.runtime fault), s) (.error (.runtime fault), t)
  | limitLeft {fault s r} (hlimit : Fault.isLimit fault = true) : EndsAlike S E V (.error fault, s) r
  | limitRight {fault r t} (hlimit : Fault.isLimit fault = true) : EndsAlike S E V r (.error fault, t)

theorem EndsAlike.mono {σ τ : Type} {S S' E : σ → τ → Prop} {α β : Type} {V : α → β → Prop}
    {r : Except Fault α × σ} {r' : Except Fault β × τ} (h : EndsAlike S E V r r')
    (hS : ∀ s t, S s t → S' s t) : EndsAlike S' E V r r' := by
  cases h with
  | ok hV h => exact .ok hV (hS _ _ h)
  | error fault hE => exact .error fault hE
  | limitLeft hlimit => exact .limitLeft hlimit
  | limitRight hlimit => exact .limitRight hlimit

/-- The identities of two machines that shared what was created before, and have since created as many
functions, counted from `c` and from `c'`. -/
def Paired (c c' i j : Nat) : Prop :=
  (i = j ∧ i < c ∧ i < c') ∨ ∃ k, i = c + k ∧ j = c' + k

theorem Paired.eq_iff {c c' i j i' j' : Nat} (h : Paired c c' i j) (h' : Paired c c' i' j') :
    i = i' ↔ j = j' := by
  rcases h with ⟨rfl, hi, hi'⟩ | ⟨k, rfl, rfl⟩ <;> rcases h' with ⟨rfl, hj, hj'⟩ | ⟨k', rfl, rfl⟩ <;> omega

/-- Machines whose global variables have values alike under each name. -/
def SameGlobals (ids : Nat → Nat → Prop) (m m' : Machine) : Prop :=
  ∀ name, Option.Rel (Value.Alike ids) (m.globals.get? name) (m'.globals.get? name)

/-- Machines with the same globals that have created as many functions since the counts were `c` and
`c'`. -/
structure SameOutside (c c' : Nat) (m m' : Machine) : Prop where
  globals : SameGlobals (Paired c c') m m'
  created : ∃ k, m.created = c + k ∧ m'.created = c' + k

/-- Machines in the middle of a call: the frames on top match, too, and what lies below them is fixed but
may be anything. -/
structure InCall (c c' : Nat) (below below' : List Frame) (m m' : Machine) : Prop
    extends SameOutside c c' m m' where
  top : ∃ F G, m.calls = F :: below ∧ m'.calls = G :: below' ∧
    FrameMatch (Value.Alike (Paired c c')) F G

/-- In the middle of a call, over whatever frames, the runs end alike. -/
def Scoped (c c' : Nat) {α β : Type} (V : α → β → Prop) (x : Run α) (y : Run β) : Prop :=
  ∀ below below' m m', InCall c c' below below' m m' →
    EndsAlike (InCall c c' below below') (SameGlobals (Paired c c')) V (x.outcome m) (y.outcome m')

theorem FrameMatch.get? {Val : Value → Value → Prop} {F G : Frame} (h : FrameMatch Val F G)
    (name : String) : Option.Rel Val (F.get? name) (G.get? name) := by
  induction h with
  | nil => exact .none
  | cons hpq _ ih =>
    rw [Frame.get?_cons, Frame.get?_cons, hpq.1]
    split
    · exact .some hpq.2
    · exact ih

/-- What one side finds first in one frame and then in another the other side finds too. -/
theorem optionRel_or {Val : Value → Value → Prop} {a b c d : Option Value}
    (h : Option.Rel Val a b) (h' : Option.Rel Val c d) : Option.Rel Val (a.or c) (b.or d) := by
  cases h with
  | none => exact h'
  | some hv => exact .some hv

theorem optionRel_isSome {Val : Value → Value → Prop} {a b : Option Value}
    (h : Option.Rel Val a b) : a.isSome = b.isSome := by
  cases h <;> rfl

theorem SameGlobals.set {ids : Nat → Nat → Prop} {m m' : Machine} (h : SameGlobals ids m m')
    (name : String) {a b : Value} (hv : a.Alike ids b) :
    SameGlobals ids { m with globals := m.globals.set name a }
      { m' with globals := m'.globals.set name b } := by
  intro other
  show Option.Rel _ ((m.globals.set name a).get? other) ((m'.globals.set name b).get? other)
  rw [Frame.get?_set, Frame.get?_set]
  split
  · exact .some hv
  · exact h other

namespace InCall

variable {c c' : Nat} {below below' : List Frame} {m m' : Machine}
  (h : InCall c c' below below' m m')
include h

theorem lookup? (name : String) :
    Option.Rel (Value.Alike (Paired c c')) (m.lookup? name) (m'.lookup? name) := by
  obtain ⟨F, G, hF, hG, hFG⟩ := h.top
  unfold Machine.lookup?
  rw [hF, hG]
  exact optionRel_or (hFG.get? name) (h.globals name)

theorem declare (name : String) {a b : Value} (hv : a.Alike (Paired c c') b) :
    InCall c c' below below' (m.declare name a) (m'.declare name b) := by
  obtain ⟨F, G, hF, hG, hFG⟩ := h.top
  unfold Machine.declare
  rw [hF, hG]
  exact ⟨⟨h.globals, h.created⟩, _, _, rfl, rfl, hFG.set name hv⟩

/-- Both sides assign to a global variable, or both to the frame on top. -/
theorem assign (name : String) {a b : Value} (hv : a.Alike (Paired c c') b) :
    InCall c c' below below' (m.assign name a) (m'.assign name b) := by
  obtain ⟨F, G, hF, hG, hFG⟩ := h.top
  -- the name is global on both sides or on none
  have hwhere : ((F.get? name).isNone && (m.globals.get? name).isSome) =
      ((G.get? name).isNone && (m'.globals.get? name).isSome) := by
    rw [← Option.not_isSome, ← Option.not_isSome, optionRel_isSome (hFG.get? name),
      optionRel_isSome (h.globals name)]
  unfold Machine.assign
  rw [hF, hG]
  dsimp only
  rw [hwhere]
  split
  · exact ⟨⟨h.globals.set name hv, h.created⟩, F, G, rfl, rfl, hFG⟩
  · exact ⟨⟨h.globals, h.created⟩, _, _, rfl, rfl, hFG.set name hv⟩

/-- A new function captures the frame on top, and gets the next identity on its side. -/
theorem close (parameters : List String) (body : FunctionBody) :
    Value.Alike (Paired c c') (.function m.created parameters body m.captured)
      (.function m'.created parameters body m'.captured) := by
  obtain ⟨F, G, hF, hG, hFG⟩ := h.top
  obtain ⟨hnames, hvalues⟩ := frameMatch_iff.1 hFG
  unfold Machine.captured
  rw [hF, hG]
  exact .function (.inr h.created) hnames hvalues

/-- The frames on top are found again when a call within the call has left all frames alone. -/
theorem back {n n' : Machine} (hn : SameOutside c c' n n') (hcalls : n.calls = m.calls)
    (hcalls' : n'.calls = m'.calls) : InCall c c' below below' n n' :=
  ⟨hn, by rw [hcalls, hcalls']; exact h.top⟩

end InCall

namespace Scoped

variable {c c' : Nat} {α β γ δ : Type} {V : α → β → Prop} {W : γ → δ → Prop}

theorem pure {a : α} {b : β} (h : V a b) : Scoped c c' V (pure a) (pure b) := by
  intro below below' m m' hm
  rw [RunOn.outcome_pure, RunOn.outcome_pure]
  exact .ok h hm

theorem bind {x : Run α} {y : Run β} {f : α → Run γ} {g : β → Run δ} (h : Scoped c c' V x y)
    (hf : ∀ a b, V a b → Scoped c c' W (f a) (g b)) : Scoped c c' W (x >>= f) (y >>= g) := by
  intro below below' m m' hm
  have hxy := h below below' m m' hm
  rw [RunOn.outcome_bind, RunOn.outcome_bind]
  generalize x.outcome m = r at hxy
  generalize y.outcome m' = r' at hxy
  cases hxy with
  | ok hV hS => exact hf _ _ hV below below' _ _ hS
  | error fault hE => exact .error fault hE
  | limitLeft hlimit => exact .limitLeft hlimit
  | limitRight hlimit => exact .limitRight hlimit

theorem fail (fault : RuntimeFault) : Scoped c c' V (Run.fail fault) (Run.fail fault) :=
  fun _ _ _ _ hm => .error fault hm.globals

theorem limit {fault fault' : Fault} (hlimit : fault.isLimit = true) :
    Scoped c c' V (throw fault) (throw fault') :=
  fun _ _ _ _ _ => .limitLeft hlimit

/-- A run with its own frame on top ends alike from any two machines that are the same outside of the
frames, and leaves all frames alone. -/
theorem inFrame {x : Run α} {y : Run β} (h : Scoped c c' V x y) {F G : Frame}
    (hFG : FrameMatch (Value.Alike (Paired c c')) F G) {m m' : Machine} (hm : SameOutside c c' m m') :
    EndsAlike (fun n n' => SameOutside c c' n n' ∧ n.calls = m.calls ∧ n'.calls = m'.calls)
      (SameGlobals (Paired c c')) V ((Run.inFrame F x).outcome m) ((Run.inFrame G y).outcome m') := by
  rw [Run.outcome_inFrame, Run.outcome_inFrame]
  split
  · exact .limitLeft rfl
  · split
    · exact .limitRight rfl
    · -- whatever frames there are, they lie below the call
      have hxy := h m.calls m'.calls { m with calls := F :: m.calls } { m' with calls := G :: m'.calls }
        ⟨⟨hm.globals, hm.created⟩, F, G, rfl, rfl, hFG⟩
      dsimp only
      generalize x.outcome _ = r at hxy
      generalize y.outcome _ = r' at hxy
      cases hxy with
      | ok hV hS =>
        obtain ⟨F', G', hF', hG', -⟩ := hS.top
        exact .ok hV ⟨⟨hS.globals, hS.created⟩, congrArg List.tail hF', congrArg List.tail hG'⟩
      | error fault hE => exact .error fault hE
      | limitLeft hlimit => exact .limitLeft hlimit
      | limitRight hlimit => exact .limitRight hlimit

/-- Changes of what belongs to the limits go unnoticed. -/
theorem deeper {x : Run α} {y : Run β} (h : Scoped c c' V x y) :
    Scoped c c' V (Run.deeper x) (Run.deeper y) := by
  intro below below' m m' hm
  rw [Run.outcome_deeper, Run.outcome_deeper]
  split
  · exact .limitLeft rfl
  · split
    · exact .limitRight rfl
    · have hxy := h below below' { m with depth := m.depth + 1 } { m' with depth := m'.depth + 1 }
        ⟨⟨hm.globals, hm.created⟩, hm.top⟩
      dsimp only
      generalize x.outcome _ = r at hxy
      generalize y.outcome _ = r' at hxy
      cases hxy with
      | ok hV hS => exact .ok hV ⟨⟨hS.globals, hS.created⟩, hS.top⟩
      | error fault hE => exact .error fault hE
      | limitLeft hlimit => exact .limitLeft hlimit
      | limitRight hlimit => exact .limitRight hlimit

theorem tick : Scoped c c' Eq Run.tick Run.tick := by
  intro below below' m m' hm
  rw [Run.outcome_tick, Run.outcome_tick]
  split
  · exact .limitLeft rfl
  · split
    · exact .limitLeft rfl
    · split
      · exact .limitRight rfl
      · split
        · exact .limitRight rfl
        · exact .ok rfl ⟨⟨hm.globals, hm.created⟩, hm.top⟩

end Scoped

/-- Lexical scope as a coupling of runs in calls over different frames. -/
def scope (c c' : Nat) : Coupling Machine Machine where
  Literal _ := True
  Name _ := True
  Val _ := Value.Alike (Paired c c')
  Rel n V := Scoped c c' (V n)
  Rounds _ _ := True
  values := Value.Alike.values Paired.eq_iff
  later _ h := h
  pure := .pure
  bind h hf := h.bind fun a b => hf _ a b (Nat.le_refl _)
  fail := .fail
  lookup {_ name} _ _ _ _ _ hm := .ok (hm.lookup? name) hm
  assign {_ name _ _} _ hv _ _ _ _ hm := .ok rfl (hm.assign name hv)
  declare name _ _ hv _ _ _ _ hm := .ok rfl (hm.declare name hv)
  close parameters body _ _ _ _ _ hm := by
    obtain ⟨k, hk, hk'⟩ := hm.created
    exact .ok (hm.close parameters body)
      ⟨⟨hm.globals, k + 1, congrArg (· + 1) hk, congrArg (· + 1) hk'⟩, hm.top⟩
  enter hf hargs h _ _ _ _ hm :=
    (h.inFrame ((Value.Alike.values Paired.eq_iff).callFrame hf hargs) hm.toSameOutside).mono fun _ _ hn =>
      hm.back hn.1 hn.2.1 hn.2.2
  stepsLeft _ _ _ _ hm := .ok trivial hm
  rounds_pred _ := trivial
  exhausted _ _ _ _ _ := .limitLeft rfl
  exhausted_left _ _ _ _ _ _ := .limitLeft rfl
  exhausted_right _ _ _ _ _ _ := .limitRight rfl

theorem scope_steps (c c' : Nat) : (scope c c').Steps where
  tick := Scoped.tick
  limit := Scoped.limit rfl
  deeper h := Scoped.deeper h

/-- The interpreter in two calls over different frames. -/
theorem scope_interpreter (c c' : Nat) : (scope c c').Parts interpreter interpreter :=
  ⟨fun _ _ => .all, (scope_steps c c').interpreterOn⟩

/-! ### What a call sees -/

/-- Values that are the same when functions are compared by definition and captured variables. -/
abbrev Value.Same : Value → Value → Prop :=
  Value.Alike fun _ _ => True

/-- The machine has created all functions that a call can reach: the called one, and those among the
arguments and the global variables.  So it has wherever a run gets to (`runs_counted`). -/
structure Machine.Counts (m : Machine) (function : Value) (arguments : List Value) : Prop where
  function : function.CreatedBefore m.created
  arguments : ∀ value ∈ arguments, value.CreatedBefore m.created
  globals : ∀ name value, m.globals.get? name = some value → value.CreatedBefore m.created

/-- A machine has, as at every point of a run, created all functions that a call can reach. -/
theorem Machine.Counted.counts {m : Machine} (hm : m.Counted) {function : Value} {arguments : List Value}
    (hfunction : function.CreatedBefore m.created)
    (harguments : ∀ value ∈ arguments, value.CreatedBefore m.created) : m.Counts function arguments where
  function := hfunction
  arguments := harguments
  globals name value hvalue := by
    obtain ⟨p, hp, rfl⟩ := Frame.mem_of_get? hvalue
    exact hm.globals p hp

/-- Machines from which a call has the same functions to tell apart: the next function that either creates
gets the same identity, or on both sides one that no function within reach of the call has. -/
def Machine.CountsWith (m m' : Machine) (function : Value) (arguments : List Value) : Prop :=
  m.created = m'.created ∨ m.Counts function arguments ∧ m'.Counts function arguments

/-- The machine on which the body of a called function begins to run. -/
def Machine.entered (m : Machine) (captured : Frame) (parameters : List String)
    (arguments : List Value) : Machine :=
  { m with calls := Interpreter.callFrame captured parameters arguments :: m.calls }

/-- A function that both machines have counted, or that either would number alike, keeps its identity. -/
theorem Value.Alike.of_created {c c' : Nat} {v : Value}
    (h : c = c' ∨ v.CreatedBefore c ∧ v.CreatedBefore c') : v.Alike (Paired c c') v := by
  rcases h with rfl | ⟨hc, hc'⟩
  · -- each number is paired with itself, whether it is given already or not
    refine .self (fun i => ?_) v
    rcases Nat.lt_or_ge i c with hi | hi
    · exact .inl ⟨rfl, hi, hi⟩
    · exact .inr ⟨i - c, by omega, by omega⟩
  · have hmin : v.CreatedBefore (min c c') := by
      rcases Nat.le_total c c' with hle | hle
      · rwa [Nat.min_eq_left hle]
      · rwa [Nat.min_eq_right hle]
    exact .refl (fun _ hi => .inl ⟨rfl, by omega, by omega⟩) hmin

theorem EndsAlike.forget {c c' : Nat} {S : Machine → Machine → Prop}
    {r r' : Except Fault Value × Machine}
    (h : EndsAlike S (SameGlobals (Paired c c')) (Value.Alike (Paired c c')) r r')
    (hS : ∀ m m', S m m' → SameGlobals (Paired c c') m m') :
    EndsAlike (SameGlobals fun _ _ => True) (SameGlobals fun _ _ => True) Value.Same r r' := by
  have hforget {m m' : Machine} (hm : SameGlobals (Paired c c') m m') :
      SameGlobals (fun _ _ => True) m m' := by
    intro name
    have hname := hm name
    generalize m.globals.get? name = a at hname ⊢
    generalize m'.globals.get? name = b at hname ⊢
    cases hname with
    | none => exact .none
    | some hv => exact .some (hv.mono fun _ _ _ => trivial)
  cases h with
  | ok hV hm => exact .ok (hV.mono fun _ _ _ => trivial) (hforget (hS _ _ hm))
  | error fault hm => exact .error fault (hforget hm)
  | limitLeft hlimit => exact .limitLeft hlimit
  | limitRight hlimit => exact .limitRight hlimit

/-- A call goes alike from two machines with the same globals. -/
theorem call_endsAlike {function : Value} {arguments : List Value} {m m' : Machine}
    (hglobals : ∀ name, m.globals.get? name = m'.globals.get? name)
    (hcounts : m.CountsWith m' function arguments) :
    EndsAlike (SameGlobals fun _ _ => True) (SameGlobals fun _ _ => True) Value.Same
      ((interpreter.call function arguments).outcome m)
      ((interpreter.call function arguments).outcome m') := by
  have houtside : SameOutside m.created m'.created m m' := by
    -- no function has been created since
    refine ⟨fun name => ?_, 0, rfl, rfl⟩
    rw [← hglobals]
    cases hvalue : m.globals.get? name with
    | none => exact .none
    | some value =>
      exact .some (.of_created (hcounts.imp_right fun ⟨hm, hm'⟩ =>
        ⟨hm.globals name value hvalue, hm'.globals name value (hglobals name ▸ hvalue)⟩))
  have harguments : List.Forall₂ (Value.Alike (Paired m.created m'.created)) arguments arguments :=
    List.forall₂_same.2 fun value hvalue => .of_created (hcounts.imp_right fun ⟨hm, hm'⟩ =>
      ⟨hm.arguments value hvalue, hm'.arguments value hvalue⟩)
  have hfunction : function.Alike (Paired m.created m'.created) function :=
    .of_created (hcounts.imp_right fun ⟨hm, hm'⟩ => ⟨hm.function, hm'.function⟩)
  cases hfunction with
  | function hid hnames hvalues =>
    rw [interpreter.call_function]
    exact (Scoped.inFrame ((scope_interpreter _ _).bodyRun _)
      ((frameMatch_iff.2 ⟨hnames, hvalues⟩).callFrame .undefined harguments) houtside).forget
        fun _ _ hn => hn.1.globals
  | _ => exact EndsAlike.forget (.error _ houtside.globals) fun _ _ h => h

/-- The value of an expression comes from its own rule, a step further and a level deeper. -/
theorem value_of_evaluate {expression : Expression} {m after : Machine} {value : Value}
    (h : (interpreter.evaluate expression).outcome m = (.ok value, after)) :
    ∃ spent depth after', (interpreter.expressionValue expression).outcome
      { m with spent := spent, depth := depth } = (.ok value, after') := by
  -- one level is the step and, below it, the rule of the expression
  rw [← interpreter_above] at h
  have htick := Run.outcome_tick m
  split at htick
  · exact absurd (h.symm.trans (RunOn.outcome_bind_error htick)) (by simp)
  · split at htick
    · exact absurd (h.symm.trans (RunOn.outcome_bind_error htick)) (by simp)
    · have hdeeper := (RunOn.outcome_bind_ok htick).symm.trans h
      rw [Run.outcome_deeper] at hdeeper
      split at hdeeper
      · exact absurd hdeeper (by simp)
      · obtain ⟨hvalue, -⟩ := Prod.mk.inj hdeeper
        exact ⟨_, _, _, Prod.ext hvalue rfl⟩

/-- A function never sees its caller's variables.  From machines with the same globals a call gives the
same value or the same fault and leaves the same globals, whatever other frames they have.  The names of
the body that are no parameters mean captured variables or else globals; and a function created in the
body captures the frame of the call that it is created in. -/
theorem scope_is_lexical :
    (∀ (function : Value) (arguments : List Value) (m m' : Machine),
      (∀ name, m.globals.get? name = m'.globals.get? name) →
      m.CountsWith m' function arguments →
        EndsAlike (SameGlobals fun _ _ => True) (SameGlobals fun _ _ => True) Value.Same
          ((interpreter.call function arguments).outcome m)
          ((interpreter.call function arguments).outcome m')) ∧
    (∀ identity parameters body (captured : Frame) arguments (m : Machine),
      m.calls.length < maxCallDepth →
        ((interpreter.call (.function identity parameters body captured) arguments).outcome m).1 =
          ((interpreter.bodyRun body).outcome (m.entered captured parameters arguments)).1 ∧
        ∀ name ∉ parameters, (m.entered captured parameters arguments).lookup? name =
          (captured.get? name).or (m.globals.get? name)) ∧
    ∀ parameters body m value after,
      (interpreter.evaluate (.function parameters body)).outcome m = (.ok value, after) →
        ∃ identity, value = .function identity parameters body m.captured := by
  refine ⟨fun _ _ _ _ => call_endsAlike, ?_, ?_⟩
  · intro identity parameters body captured arguments m hfree
    have hfree' : ¬ maxCallDepth ≤ (Host.machine m).calls.length := Nat.not_le_of_lt hfree
    rw [interpreter.call_function, Run.outcome_inFrame, if_neg hfree']
    refine ⟨rfl, fun name hname => ?_⟩
    unfold Machine.lookup? Machine.entered
    dsimp only
    rw [get?_callFrame hname]
  · intro parameters body m value after h
    obtain ⟨spent, depth, after', hclose⟩ := value_of_evaluate h
    have hvalue : Value.function _ parameters body _ = value :=
      Except.ok.inj (congrArg Prod.fst ((Run.outcome_close parameters body _).symm.trans hclose))
    exact ⟨_, hvalue.symm⟩

/-- The function `x => x + a + g` with `a = 1` captured. -/
def addition : Value :=
  .function 0 ["x"]
    (.expression (.binary .add (.binary .add (.name "x") (.name "a")) (.name "g")))
    [("a", .number 1)]

/-- A machine with `g = 2` global. -/
def additionMachine (calls : List Frame) (created : Nat) : Machine :=
  { budget := ⟨1, 100⟩, globals := [("g", .number 2)], calls, created }

theorem additionMachine_counts (calls : List Frame) {created : Nat} (h : 0 < created) :
    (additionMachine calls created).Counts addition [.number 3] where
  function := .function h fun p hp => by
    rw [List.mem_singleton.1 hp]
    exact .number 1
  arguments value hvalue := by
    rw [List.mem_singleton.1 hvalue]
    exact .number 3
  globals name value hvalue := by
    have hmem := (Frame.get?_cons name ("g", .number 2) []).symm.trans hvalue
    split at hmem
    · cases hmem
      exact .number 2
    · cases hmem

/-- Six is the sum, whatever a caller calls `a`, `g` and `x`. -/
theorem addition_scope :
    let m := additionMachine [] 1
    let m' := additionMachine [[("a", .number 10), ("g", .number 20), ("x", .number 30)]] 5
    ((interpreter.call addition [.number 3]).outcome m).1.toOption.map Value.toText = some "6" ∧
      EndsAlike (SameGlobals fun _ _ => True) (SameGlobals fun _ _ => True) Value.Same
        ((interpreter.call addition [.number 3]).outcome m)
        ((interpreter.call addition [.number 3]).outcome m') ∧
      (m'.entered [("a", .number 1)] ["x"] [.number 3]).lookup? "g" = some (.number 2) ∧
      ∃ identity after, (interpreter.evaluate (.function [] (.block []))).outcome m' =
        (.ok (.function identity [] (.block []) m'.captured), after) := by
  refine ⟨by decide +kernel, ?_, ?_, ?_⟩
  · exact scope_is_lexical.1 addition [.number 3] _ _ (fun _ => rfl)
      (.inr ⟨additionMachine_counts _ (by decide), additionMachine_counts _ (by decide)⟩)
  · exact (scope_is_lexical.2.1 0 ["x"] (.block []) _ _ _ (by decide)).2 "g" (by decide)
  · obtain ⟨identity, hvalue⟩ := scope_is_lexical.2.2 [] (.block []) (additionMachine _ 5) _ _ rfl
    exact ⟨identity, _, congrArg (Except.ok · , _) hvalue⟩

end SequenceNotation.Script
