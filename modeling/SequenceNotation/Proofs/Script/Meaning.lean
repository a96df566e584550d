import SequenceNotation.Proofs.Script.Room

/-!
# Computations of the same meaning

Two computations have the same meaning if they find the same values and faults and leave the same variables, from
whatever variables they start, unless one of them runs short; and if each of them comes to an end wherever the other
one does, given some steps and levels more.  Sequences and branches of interchangeable parts are interchangeable, and
so is what stands a level deeper.
-/

namespace SequenceNotation.Script

open RunOn (outcome)

/-- Machines that differ in their limits at most, and in what has been spent of them. -/
structure Machine.SameVariables (m m' : Machine) : Prop where
  globals : m'.globals = m.globals
  calls : m'.calls = m.calls
  created : m'.created = m.created

namespace Machine.SameVariables

variable {m m' m'' : Machine}

theorem refl (m : Machine) : m.SameVariables m := ⟨rfl, rfl, rfl⟩

theorem symm (h : m.SameVariables m') : m'.SameVariables m :=
  ⟨h.globals.symm, h.calls.symm, h.created.symm⟩

theorem trans (h : m.SameVariables m') (h' : m'.SameVariables m'') : m.SameVariables m'' :=
  ⟨h'.globals.trans h.globals, h'.calls.trans h.calls, h'.created.trans h.created⟩

/-- One machine is the other one with limits of its own. -/
theorem eq (h : m.SameVariables m') : m' = { m with budget := m'.budget, spent := m'.spent, depth := m'.depth } := by
  rw [← h.globals, ← h.calls, ← h.created]

theorem lookup? (h : m.SameVariables m') (name : String) : m'.lookup? name = m.lookup? name := by
  rw [h.eq]
  rfl

theorem assign (h : m.SameVariables m') (name : String) (value : Value) :
    (m.assign name value).SameVariables (m'.assign name value) := by
  unfold Machine.assign
  rw [h.calls, h.globals]
  split
  · exact ⟨rfl, rfl, h.created⟩
  · split
    · exact ⟨rfl, rfl, h.created⟩
    · exact ⟨rfl, rfl, h.created⟩

theorem declare (h : m.SameVariables m') (name : String) (value : Value) :
    (m.declare name value).SameVariables (m'.declare name value) := by
  unfold Machine.declare
  rw [h.calls, h.globals]
  split
  · exact ⟨rfl, rfl, h.created⟩
  · exact ⟨rfl, rfl, h.created⟩

end Machine.SameVariables

/-- Runs of trees depend on the variables and not on the limits. -/
theorem variableMatch_same : VariableMatch (fun _ => True) Eq Machine.SameVariables where
  values := .eq
  limits _ _ _ _ _ _ h := ⟨h.globals, h.calls, h.created⟩
  lookup {m m' name} h _ := by
    rw [h.lookup? name]
    cases m.lookup? name with
    | none => exact .none
    | some value => exact .some rfl
  assign h _ hab := hab ▸ h.assign _ _
  declare name _ _ h hab := hab ▸ h.declare name _
  create h := ⟨h.globals, h.calls, congrArg (· + 1) h.created⟩
  close parameters body h _ := by
    rw [h.eq]
    rfl
  frames h := congrArg List.length h.calls
  push h hf hargs := by
    rw [(ValueMatch.eq.callFrame hf hargs).eq]
    exact ⟨h.globals, congrArg (_ :: ·) h.calls, h.created⟩
  pop _ h _ := ⟨h.globals, congrArg List.tail h.calls, h.created⟩

/-- Each of two computations keeps up with the other one, the right one with so many steps and levels more, and the left
one with so many. -/
def Interchangeable (right left : Extra) {α β : Type} (V : α → β → Prop) (x : Run α) (y : Run β) : Prop :=
  ∀ g, KeepsUp g Machine.SameVariables right V x y ∧ KeepsUp g Machine.SameVariables left (flip V) y x

/-- Both runs end with the same result or fault and the same variables. -/
def EndsSame {α : Type} (r r' : Except Fault α × Machine) : Prop :=
  r.1 = r'.1 ∧ r.2.SameVariables r'.2

/-- From the same variables both computations end the same, unless one of them runs short; and neither runs short with
so many steps and levels more than the other one has needed. -/
structure SameMeaning (right left : Extra) {α : Type} (x y : Run α) : Prop where
  agree : ∀ {m m'}, m.SameVariables m' → ¬RunsShort (x.outcome m) → ¬RunsShort (y.outcome m') →
    EndsSame (x.outcome m) (y.outcome m')
  lasts : ∀ {m m'}, m.SameVariables m' → m.Roomier .everything right m' → ¬RunsShort (x.outcome m) →
    ¬RunsShort (y.outcome m')
  lasts' : ∀ {m m'}, m.SameVariables m' → m.Roomier .everything left m' → ¬RunsShort (y.outcome m) →
    ¬RunsShort (x.outcome m')

namespace EndsSame

variable {α : Type} {r r' r'' : Except Fault α × Machine}

theorem symm (h : EndsSame r r') : EndsSame r' r :=
  ⟨h.1.symm, h.2.symm⟩

theorem trans (h : EndsSame r r') (h' : EndsSame r' r'') : EndsSame r r'' :=
  ⟨h.1.trans h'.1, h.2.trans h'.2⟩

end EndsSame

/-- A level of a tree is a step and its own rule, one level deeper. -/
theorem evaluate_eq (expression : Expression) :
    interpreter.evaluate expression = (do Run.tick; Run.deeper (interpreter.expressionValue expression)) :=
  congrArg (fun p : Interpreter Machine => p.evaluate expression) interpreter_above.symm

theorem execute_eq (statement : Statement) :
    interpreter.execute statement = (do Run.tick; Run.deeper (interpreter.statementFlow statement)) :=
  congrArg (fun p : Interpreter Machine => p.execute statement) interpreter_above.symm

/-- What is run behind a statement that ends so. -/
def following (rest : List Statement) : Flow → Run Flow
  | .next => interpreter.executeAll rest
  | .returned value => return .returned value

theorem executeAll_cons (statement : Statement) (rest : List Statement) :
    interpreter.executeAll (statement :: rest) = interpreter.execute statement >>= following rest := by
  refine bind_congr fun flow => ?_
  cases flow <;> rfl

theorem executeAll_singleton (statement : Statement) :
    interpreter.executeAll [statement] = interpreter.execute statement := by
  rw [executeAll_cons]
  refine (bind_congr fun flow => ?_).trans (bind_pure _)
  cases flow <;> rfl

namespace Interchangeable

variable {right right' left left' : Extra} {α β γ δ : Type} {V : α → β → Prop} {V' : γ → δ → Prop}
  {x x' : Run α} {y y' : Run β}

/-- What the coupling of variables says of a run and itself. -/
theorem of_coupling {x : Run α} (h : ∀ g, (variableMatch_same.coupling g).Rel 0 (fun _ => Eq) x x) :
    Interchangeable .none .none Eq x x :=
  fun g => ⟨h g, KeepsUp.weaken (h g) fun _ _ hab => hab.symm⟩

theorem evaluate (expression : Expression) :
    Interchangeable .none .none Eq (interpreter.evaluate expression) (interpreter.evaluate expression) :=
  of_coupling fun g => (variableMatch_same.interpreter_parts g).evaluate .all

theorem expressionValue (expression : Expression) :
    Interchangeable .none .none Eq (interpreter.expressionValue expression) (interpreter.expressionValue expression) :=
  of_coupling fun g => (variableMatch_same.interpreter_parts g).expressionValue .all

theorem read (name : String) : Interchangeable .none .none Eq (Run.read name : Run Value) (Run.read name) :=
  of_coupling fun g => (variableMatch_same.coupling g).read trivial

theorem assign (name : String) (value : Value) :
    Interchangeable .none .none Eq (Run.assign name value : Run Unit) (Run.assign name value) :=
  of_coupling fun g => (variableMatch_same.coupling g).assign trivial rfl

theorem lookup? (name : String) :
    Interchangeable .none .none Eq (Run.lookup? name : Run (Option Value)) (Run.lookup? name) :=
  of_coupling fun g =>
    KeepsUp.weaken (V := Option.Rel Eq) ((variableMatch_same.coupling g).lookup (n := 0) trivial) fun a b hab => by
      cases hab with
      | none => rfl
      | some h => exact congrArg some h

theorem declare (name : String) (value : Value) :
    Interchangeable .none .none Eq (Run.declare name value : Run Unit) (Run.declare name value) :=
  of_coupling fun g => (variableMatch_same.coupling g).declare name rfl

theorem builtin (name : String) (missing : RuntimeFault) (arguments : List Value) :
    Interchangeable .none .none Eq (Interpreter.builtin name missing arguments : Run Value)
      (Interpreter.builtin name missing arguments) :=
  of_coupling fun g => (variableMatch_same.coupling g).builtin name missing (List.forall₂_same.2 fun _ _ => rfl)

theorem call (function : Value) (arguments : List Value) :
    Interchangeable .none .none Eq (interpreter.call function arguments) (interpreter.call function arguments) :=
  of_coupling fun g => (variableMatch_same.interpreter_parts g).call rfl (List.forall₂_same.2 fun _ _ => rfl)

theorem pure {a : α} {b : β} (h : V a b) : Interchangeable .none .none V (pure a) (pure b) :=
  fun _ => ⟨.pure h, .pure h⟩

theorem fail (fault : Fault) : Interchangeable .none .none V (throw fault) (throw fault) :=
  fun _ => ⟨.fail fault, .fail fault⟩

theorem lift (result : Except RuntimeFault Value) :
    Interchangeable .none .none Eq (Run.lift result : Run Value) (Run.lift result) := by
  cases result with
  | ok value => exact pure rfl
  | error fault => exact fail _

theorem mono (h : Interchangeable right left V x y) (hright : right ≤ right') (hleft : left ≤ left') :
    Interchangeable right' left' V x y :=
  fun g => ⟨(h g).1.mono hright, (h g).2.mono hleft⟩

theorem bind {f : α → Run γ} {f' : β → Run δ} (h : Interchangeable right left V x y)
    (hf : ∀ a b, V a b → Interchangeable right' left' V' (f a) (f' b)) :
    Interchangeable (right.andThen right') (left.andThen left') V' (x >>= f) (y >>= f') :=
  fun g => ⟨(h g).1.bind fun a b hab => (hf a b hab g).1, (h g).2.bind fun b a hab => (hf a b hab g).2⟩

/-- A run with itself in front. -/
theorem bind_eq {x y : Run α} {f : α → Run γ} {f' : α → Run δ} (h : Interchangeable right left Eq x y)
    (hf : ∀ a, Interchangeable right' left' V' (f a) (f' a)) :
    Interchangeable (right.andThen right') (left.andThen left') V' (x >>= f) (y >>= f') :=
  h.bind fun a _ hab => hab ▸ hf a

theorem ite {c : Prop} [Decidable c] (h : Interchangeable right left V x y) (h' : Interchangeable right left V x' y') :
    Interchangeable right left V (if c then x else x') (if c then y else y') := by
  split
  · exact h
  · exact h'

/-- One level deeper on both sides. -/
theorem level (h : Interchangeable right left V x y) :
    Interchangeable right left V (do Run.tick; Run.deeper x) (do Run.tick; Run.deeper y) := fun g =>
  have hboth {α β : Type} {V : α → β → Prop} {x : Run α} {y : Run β} {extra : Extra}
      (h : KeepsUp g Machine.SameVariables extra V x y) :
      KeepsUp g Machine.SameVariables extra V (do Run.tick; Run.deeper x) (do Run.tick; Run.deeper y) :=
    extra.none_andThen ▸ variableMatch_same.tick.bind fun _ _ _ => variableMatch_same.deeper h
  ⟨hboth (h g).1, hboth (h g).2⟩

theorem levelLeft (h : Interchangeable right left V x y) :
    Interchangeable right left.level V (do Run.tick; Run.deeper x) y :=
  fun g => ⟨variableMatch_same.levelLeft (h g).1, variableMatch_same.levelRight (h g).2⟩

theorem levelRight (h : Interchangeable right left V x y) :
    Interchangeable right.level left V x (do Run.tick; Run.deeper y) :=
  fun g => ⟨variableMatch_same.levelRight (h g).1, variableMatch_same.levelLeft (h g).2⟩

theorem symm (h : Interchangeable right left V x y) : Interchangeable left right (flip V) y x :=
  fun g => ⟨(h g).2, (h g).1⟩

section

variable {m m' : Machine} (h : Interchangeable right left V x y) (hm : m.SameVariables m')
include h hm

/-- Runs of which neither ends short end alike. -/
theorem ends_alike (hx : ¬RunsShort (x.outcome m)) (hy : ¬RunsShort (y.outcome m')) :
    ((∃ a b, (x.outcome m).1 = .ok a ∧ (y.outcome m').1 = .ok b ∧ V a b) ∨
        ∃ fault, (x.outcome m).1 = .error fault ∧ (y.outcome m').1 = .error fault) ∧
      (x.outcome m).2.SameVariables (y.outcome m').2 := by
  obtain ⟨hresult, hafter⟩ := ((h .nothing).1 0 m m' hm (.nothing m m')).ends_alike hx hy
  exact ⟨hresult, hafter.related⟩

/-- Results match, and the variables are the same. -/
theorem ok_alike {a : α} {b : β} {n n' : Machine} (hx : x.outcome m = (.ok a, n)) (hy : y.outcome m' = (.ok b, n')) :
    V a b ∧ n.SameVariables n' := by
  obtain ⟨hresult, hafter⟩ := h.ends_alike hm (hx ▸ not_runsShort_ok a n) (hy ▸ not_runsShort_ok b n')
  rw [hx, hy] at hresult hafter
  rcases hresult with ⟨_, _, ⟨⟩, ⟨⟩, hab⟩ | ⟨_, ⟨⟩, -⟩
  exact ⟨hab, hafter⟩

/-- With so much room more the right run does not end short unless the left one does. -/
theorem lasts (hroom : m.Roomier .everything right m') (hx : ¬RunsShort (x.outcome m)) : ¬RunsShort (y.outcome m') := by
  have hroom' : m.Roomier .everything ⟨0 + right.steps, right.levels⟩ m' := by rwa [Nat.zero_add]
  exact ((h .everything).1 0 m m' hm hroom').lasts hx

end

/-- Computations that may be interchanged have the same meaning. -/
theorem sameMeaning {x y : Run α} (h : Interchangeable right left Eq x y) : SameMeaning right left x y where
  agree {m m'} hm hx hy := by
    obtain ⟨hresult, hafter⟩ := h.ends_alike hm hx hy
    refine ⟨?_, hafter⟩
    rcases hresult with ⟨a, b, ha, hb, rfl⟩ | ⟨fault, hleft, hright⟩
    · rw [ha, hb]
    · rw [hleft, hright]
  lasts hm hroom hx := h.lasts hm hroom hx
  lasts' hm hroom hy := h.symm.lasts hm hroom hy

end Interchangeable

end SequenceNotation.Script
