import Mathlib.Data.List.Forall2
import Mathlib.Data.Option.Basic
import SequenceNotation.Proofs.Script.Literals
import SequenceNotation.Proofs.Script.Outcome
import SequenceNotation.Script.Evaluate

/-!
# Couplings of interpreters

A coupling compares runs on two hosts.  It says when two values match and when two runs correspond, and it
respects every primitive of a run.  The main statement is that it then respects the interpreter: whatever
a coupling says of the parts of a tree it says of the whole tree, and so of every tree with string literals
and names that it admits.

What holds of all runs is shown by giving a coupling.  Nothing here speaks of a particular one.
-/

namespace SequenceNotation.Script

/-- Frames that give matching values to the same names in the same order. -/
def FrameMatch (Val : Value → Value → Prop) : Frame → Frame → Prop :=
  List.Forall₂ fun p q => p.1 = q.1 ∧ Val p.2 q.2

/-- Both operations give matching values, or both fail alike. -/
inductive ResultMatch (Val : Value → Value → Prop) :
    Except RuntimeFault Value → Except RuntimeFault Value → Prop
  | ok {a b : Value} (h : Val a b) : ResultMatch Val (.ok a) (.ok b)
  | error (fault : RuntimeFault) : ResultMatch Val (.error fault) (.error fault)

/-- Both statements go on, or both return matching values. -/
inductive FlowMatch (Val : Value → Value → Prop) : Flow → Flow → Prop
  | next : FlowMatch Val .next .next
  | returned {a b : Value} (h : Val a b) : FlowMatch Val (.returned a) (.returned b)

/-- The string literals and the names of a tree are admitted. -/
structure Admitted (Literal Name : String → Prop) (literals names : List String) : Prop where
  literals : ∀ t ∈ literals, Literal t
  names : ∀ name ∈ names, Name name

theorem Admitted.append {Literal Name : String → Prop} {literals literals' names names' : List String}
    (h : Admitted Literal Name (literals ++ literals') (names ++ names')) :
    Admitted Literal Name literals names ∧ Admitted Literal Name literals' names' :=
  ⟨⟨fun t ht => h.literals t (List.mem_append_left _ ht),
      fun name hname => h.names name (List.mem_append_left _ hname)⟩,
    ⟨fun t ht => h.literals t (List.mem_append_right _ ht),
      fun name hname => h.names name (List.mem_append_right _ hname)⟩⟩

theorem Admitted.all {literals names : List String} :
    Admitted (fun _ => True) (fun _ => True) literals names :=
  ⟨fun _ _ => trivial, fun _ _ => trivial⟩

/-- A matching of values that operators, functions and methods respect.  A string literal matches itself
if it is one of `Literal`.  The bodies of functions that match have no others, and no other names than those
of `Name`. -/
structure ValueMatch (Literal Name : String → Prop) (Val : Value → Value → Prop) : Prop where
  undefined : Val .undefined .undefined
  null : Val .null .null
  boolean : ∀ b, Val (.boolean b) (.boolean b)
  number : ∀ x, Val (.number x) (.number x)
  literal : ∀ {s}, Literal s → Val (.text s) (.text s)
  kind : ∀ v : Value, Val (.text v.typeName) (.text v.typeName)
  isTruthy : ∀ {a b}, Val a b → a.isTruthy = b.isTruthy
  isNullish : ∀ {a b}, Val a b → a.isNullish = b.isNullish
  typeName : ∀ {a b}, Val a b → a.typeName = b.typeName
  toNumber : ∀ {a b}, Val a b → a.toNumber = b.toNumber
  binary : ∀ operator {a b c d}, Val a b → Val c d →
    ResultMatch Val (applyBinary operator a c) (applyBinary operator b d)
  builtin : ∀ name {xs ys}, List.Forall₂ Val xs ys →
    Option.Rel Val (applyBuiltin? name xs) (applyBuiltin? name ys)
  method : ∀ name {a b xs ys}, Val a b → List.Forall₂ Val xs ys →
    ResultMatch Val (applyMethod a name xs) (applyMethod b name ys)
  member : ∀ property {a b}, Val a b →
    ResultMatch Val (memberOf a property) (memberOf b property)
  function : ∀ {i parameters body captured v},
    Val (.function i parameters body captured) v →
      ∃ j captured', v = .function j parameters body captured' ∧
        FrameMatch Val captured captured' ∧ Admitted Literal Name body.literals body.names

/-- A comparison of runs on two hosts that every primitive respects.  It may say more of values, and of the
results of runs, the further the runs have got: `Val` and `Rel` speak of a stage, stages only grow, and
values that match go on to match.  `Literal` and `Name` say which string literals and which names of
variables are admitted, `Rounds` compares how many rounds of a loop the two runs may still make. -/
structure Coupling (σ τ : Type) [Host σ] [Host τ] where
  Literal : String → Prop
  Name : String → Prop
  Val : Nat → Value → Value → Prop
  Rel : {α β : Type} → Nat → (Nat → α → β → Prop) → RunOn σ α → RunOn τ β → Prop
  Rounds : Nat → Nat → Prop
  values : ∀ {n}, ValueMatch Literal Name (Val n)
  later : ∀ {n n' a b}, n ≤ n' → Val n a b → Val n' a b
  pure : ∀ {α β : Type} {n} {V : Nat → α → β → Prop} {a b}, V n a b → Rel n V (pure a) (pure b)
  bind : ∀ {α β γ δ : Type} {n} {V : Nat → α → β → Prop} {W : Nat → γ → δ → Prop} {x y f g},
    Rel n V x y → (∀ n' a b, n ≤ n' → V n' a b → Rel n' W (f a) (g b)) →
      Rel n W (x >>= f) (y >>= g)
  fail : ∀ {α β : Type} {n} {V : Nat → α → β → Prop} (fault : RuntimeFault),
    Rel n V (Run.fail fault) (Run.fail fault)
  lookup : ∀ {n} {name}, Name name →
    Rel n (fun n => Option.Rel (Val n)) (Run.lookup? name) (Run.lookup? name)
  assign : ∀ {n} {name} {a b}, Name name → Val n a b →
    Rel n (fun _ => Eq) (Run.assign name a) (Run.assign name b)
  declare : ∀ {n} name {a b}, Val n a b →
    Rel n (fun _ => Eq) (Run.declare name a) (Run.declare name b)
  close : ∀ {n} parameters {body : FunctionBody}, Admitted Literal Name body.literals body.names →
    Rel n Val (Run.close parameters body) (Run.close parameters body)
  enter : ∀ {n i j parameters body F G xs ys x y},
    Val n (.function i parameters body F) (.function j parameters body G) →
      List.Forall₂ (Val n) xs ys → Rel n Val x y →
        Rel n Val (Run.inFrame (Interpreter.callFrame F parameters xs) x)
          (Run.inFrame (Interpreter.callFrame G parameters ys) y)
  stepsLeft : ∀ {n}, Rel n (fun _ => Rounds) Run.stepsLeft Run.stepsLeft
  rounds_pred : ∀ {n m}, Rounds (n + 1) (m + 1) → Rounds n m
  exhausted : ∀ {α β : Type} {n} {V : Nat → α → β → Prop}, Rel n V Run.exhausted Run.exhausted
  exhausted_left : ∀ {α β : Type} {n} {V : Nat → α → β → Prop} {m} {y : RunOn τ β},
    Rounds 0 (m + 1) → Rel n V Run.exhausted y
  exhausted_right : ∀ {α β : Type} {n} {V : Nat → α → β → Prop} {m} {x : RunOn σ α},
    Rounds (m + 1) 0 → Rel n V x Run.exhausted

namespace FrameMatch

variable {Val : Value → Value → Prop}

theorem eq {F G : Frame} (h : FrameMatch Eq F G) : F = G :=
  List.forall₂_eq_eq_eq ▸ h.imp fun _ _ hpq => Prod.ext hpq.1 hpq.2

theorem set {F G : Frame} {a b : Value} (name : String) (h : FrameMatch Val F G)
    (hv : Val a b) : FrameMatch Val (F.set name a) (G.set name b) := by
  induction h with
  | nil => exact .cons ⟨rfl, hv⟩ .nil
  | cons hpq hrest ih =>
    rename_i p q F' G'
    obtain ⟨n, u⟩ := p
    obtain ⟨n', u'⟩ := q
    obtain ⟨rfl, hu⟩ := hpq
    unfold Frame.set
    split
    · exact .cons ⟨rfl, hv⟩ hrest
    · exact .cons ⟨rfl, hu⟩ ih

theorem callFrame (hu : Val .undefined .undefined) {F G : Frame} {parameters : List String}
    {xs ys : List Value} (h : FrameMatch Val F G) (hargs : List.Forall₂ Val xs ys) :
    FrameMatch Val (Interpreter.callFrame F parameters xs)
      (Interpreter.callFrame G parameters ys) := by
  induction parameters generalizing F G xs ys with
  | nil => simpa [Interpreter.callFrame] using h
  | cons parameter parameters ih =>
    cases hargs with
    | nil =>
      simp only [Interpreter.callFrame]
      exact ih (h.set parameter hu) .nil
    | cons hv hrest =>
      simp only [Interpreter.callFrame]
      exact ih (h.set parameter hv) hrest

end FrameMatch

namespace ValueMatch

section

variable {Literal Name : String → Prop} {Val : Value → Value → Prop} (h : ValueMatch Literal Name Val)
include h

theorem applyUnary (operator : UnaryOperator) {a b : Value} (hv : Val a b) :
    Val (Script.applyUnary operator a) (Script.applyUnary operator b) := by
  cases operator with
  | negate => simpa [Script.applyUnary, h.toNumber hv] using h.number _
  | plus => simpa [Script.applyUnary, h.toNumber hv] using h.number _
  | not => simpa [Script.applyUnary, h.isTruthy hv] using h.boolean _
  | typeof => simpa [Script.applyUnary, h.typeName hv] using h.kind b

theorem decides (operator : LogicalOperator) {a b : Value} (hv : Val a b) :
    Interpreter.decides operator a = Interpreter.decides operator b := by
  cases operator <;> simp [Interpreter.decides, h.isTruthy hv, h.isNullish hv]

/-- Calls of functions that match have frames that match. -/
theorem callFrame {i j : Nat} {parameters : List String} {body : FunctionBody} {F G : Frame} {xs ys : List Value}
    (hf : Val (.function i parameters body F) (.function j parameters body G))
    (hargs : List.Forall₂ Val xs ys) :
    FrameMatch Val (Interpreter.callFrame F parameters xs) (Interpreter.callFrame G parameters ys) := by
  obtain ⟨_, _, heq, hframe, -⟩ := h.function hf
  cases heq
  exact hframe.callFrame h.undefined hargs

end

/-- Equal values match. -/
theorem eq : ValueMatch (fun _ => True) (fun _ => True) Eq where
  undefined := rfl
  null := rfl
  boolean _ := rfl
  number _ := rfl
  literal _ := rfl
  kind _ := rfl
  isTruthy h := congrArg _ h
  isNullish h := congrArg _ h
  typeName h := congrArg _ h
  toNumber h := congrArg _ h
  binary operator a b c d h k := by
    subst h k
    cases applyBinary operator a c with
    | ok v => exact .ok rfl
    | error fault => exact .error fault
  builtin name xs ys h := by
    obtain rfl := List.forall₂_eq_eq_eq ▸ h
    cases applyBuiltin? name xs with
    | none => exact .none
    | some v => exact .some rfl
  method name a b xs ys h k := by
    obtain rfl := List.forall₂_eq_eq_eq ▸ k
    subst h
    cases applyMethod a name xs with
    | ok v => exact .ok rfl
    | error fault => exact .error fault
  member property a b h := by
    subst h
    cases memberOf a property with
    | ok v => exact .ok rfl
    | error fault => exact .error fault
  function {i parameters body captured v} h :=
    ⟨i, captured, h.symm, List.forall₂_same.2 fun _ _ => ⟨rfl, rfl⟩, .all⟩

end ValueMatch

/-- What a call of a function runs in its frame. -/
def Interpreter.bodyRun {σ : Type} [Host σ] (p : Interpreter σ) : FunctionBody → RunOn σ Value
  | .expression result => p.evaluate result
  | .block statements => p.bodyValue statements

theorem Interpreter.call_function {σ : Type} [Host σ] (p : Interpreter σ) (identity : Nat)
    (parameters : List String) (body : FunctionBody) (captured : Frame) (xs : List Value) :
    p.call (.function identity parameters body captured) xs =
      Run.inFrame (callFrame captured parameters xs) (p.bodyRun body) := by
  cases body <;> rfl

/-- Only functions can be called. -/
theorem Interpreter.call_of_typeName_ne {σ : Type} [Host σ] (p : Interpreter σ) {f : Value}
    (h : f.typeName ≠ "function") (xs : List Value) :
    p.call f xs = Run.fail (.notCallable f.typeName) := by
  cases f with
  | function => exact absurd rfl h
  | _ => rfl

namespace Coupling

variable {σ τ : Type} [Host σ] [Host τ] (C : Coupling σ τ)

/-- All of the string literals and of the names are admitted. -/
abbrev Admits (literals names : List String) : Prop :=
  Admitted C.Literal C.Name literals names

/-- Values that match one by one at the stage. -/
abbrev Vals (n : Nat) : List Value → List Value → Prop :=
  List.Forall₂ (C.Val n)

/-- Statements that end alike at the stage. -/
abbrev Flows (n : Nat) : Flow → Flow → Prop :=
  FlowMatch (C.Val n)

/-- Two interpreters that the coupling cannot tell apart by trees with admitted literals and names. -/
structure AdmittedParts (p : Interpreter σ) (q : Interpreter τ) : Prop where
  evaluate : ∀ {n} {expression : Expression}, C.Admits expression.literals expression.names →
    C.Rel n C.Val (p.evaluate expression) (q.evaluate expression)
  execute : ∀ {n} {statement : Statement}, C.Admits statement.literals statement.names →
    C.Rel n C.Flows (p.execute statement) (q.execute statement)

variable {n : Nat}

/-- A test for which both runs take the same branch. -/
theorem ite {α β : Type} {V : Nat → α → β → Prop} {c d : Prop} [Decidable c] [Decidable d]
    {x x' : RunOn σ α} {y y' : RunOn τ β} (hcd : c ↔ d) (h : C.Rel n V x y)
    (h' : C.Rel n V x' y') : C.Rel n V (if c then x else x') (if d then y else y') := by
  by_cases hc : c
  · rw [if_pos hc, if_pos (hcd.1 hc)]
    exact h
  · rw [if_neg hc, if_neg (mt hcd.2 hc)]
    exact h'

theorem lift {r r' : Except RuntimeFault Value} (h : ResultMatch (C.Val n) r r') :
    C.Rel n C.Val (Run.lift r) (Run.lift r') := by
  cases h with
  | ok h => exact C.pure h
  | error fault => exact C.fail fault

theorem read {name : String} (hname : C.Name name) : C.Rel n C.Val (Run.read name) (Run.read name) := by
  refine C.bind (C.lookup hname) fun _ a b _ h => ?_
  cases h with
  | some h => exact C.pure h
  | none =>
    refine C.ite Iff.rfl (C.pure (C.values.number _)) ?_
    exact C.ite Iff.rfl (C.pure (C.values.number _)) (C.fail _)

theorem isMath {object : Expression} (hobject : C.Admits object.literals object.names) :
    C.Rel n (fun _ => Eq) (Interpreter.isMath object) (Interpreter.isMath object) := by
  cases object with
  | name name =>
    have hname := hobject.names name (.head _)
    refine C.ite Iff.rfl (C.bind (C.lookup hname) fun _ a b _ h => C.pure ?_) (C.pure rfl)
    cases h <;> rfl
  | _ => exact C.pure rfl

theorem builtin (name : String) (missing : RuntimeFault) {xs ys : List Value}
    (h : C.Vals n xs ys) :
    C.Rel n C.Val (Interpreter.builtin name missing xs) (Interpreter.builtin name missing ys) := by
  have hresult := C.values.builtin name h
  unfold Interpreter.builtin
  generalize applyBuiltin? name xs = r at hresult
  generalize applyBuiltin? name ys = r' at hresult
  cases hresult with
  | some hv => exact C.pure hv
  | none => exact C.fail _

theorem assignedValue {name : String} (hname : C.Name name) (operator : Option BinaryOperator) {a b : Value}
    (h : C.Val n a b) :
    C.Rel n C.Val (Interpreter.assignedValue name operator a)
      (Interpreter.assignedValue name operator b) := by
  cases operator with
  | none => exact C.pure h
  | some operator =>
    exact C.bind (C.read hname) fun _ _ _ hn hold =>
      C.lift (C.values.binary operator hold (C.later hn h))

namespace AdmittedParts

variable {C}
variable {p : Interpreter σ} {q : Interpreter τ} (h : C.AdmittedParts p q)
include h

theorem executeAll {statements : List Statement}
    (hlit : C.Admits (Statement.listLiterals statements) (Statement.listNames statements)) :
    C.Rel n C.Flows (p.executeAll statements) (q.executeAll statements) := by
  induction statements generalizing n with
  | nil => exact C.pure .next
  | cons statement rest ih =>
    obtain ⟨hfirst, hrest⟩ := hlit.append
    refine C.bind (h.execute hfirst) fun _ a b _ hab => ?_
    cases hab with
    | next => exact ih hrest
    | returned hv => exact C.pure (.returned hv)

theorem bodyValue {statements : List Statement}
    (hlit : C.Admits (Statement.listLiterals statements) (Statement.listNames statements)) :
    C.Rel n C.Val (p.bodyValue statements) (q.bodyValue statements) := by
  refine C.bind (h.executeAll hlit) fun _ a b _ hab => ?_
  cases hab with
  | next => exact C.pure C.values.undefined
  | returned hv => exact C.pure hv

theorem argumentValues {arguments : List Expression}
    (hlit : C.Admits (Expression.listLiterals arguments) (Expression.listNames arguments)) :
    C.Rel n C.Vals (p.argumentValues arguments) (q.argumentValues arguments) := by
  induction arguments generalizing n with
  | nil => exact C.pure .nil
  | cons argument rest ih =>
    obtain ⟨hfirst, hrest⟩ := hlit.append
    refine C.bind (h.evaluate hfirst) fun _ a b _ hab => ?_
    exact C.bind (ih hrest) fun _ xs ys hn hvalues => C.pure (.cons (C.later hn hab) hvalues)

theorem bodyRun {body : FunctionBody} (hlit : C.Admits body.literals body.names) :
    C.Rel n C.Val (p.bodyRun body) (q.bodyRun body) := by
  cases body with
  | expression result => exact h.evaluate hlit
  | block statements => exact h.bodyValue hlit

/-- Matching functions called with matching arguments. -/
theorem call {f g : Value} {xs ys : List Value} (hf : C.Val n f g)
    (hargs : C.Vals n xs ys) : C.Rel n C.Val (p.call f xs) (q.call g ys) := by
  have hother (hf' : f.typeName ≠ "function") :
      C.Rel n C.Val (p.call f xs) (q.call g ys) := by
    rw [p.call_of_typeName_ne hf', q.call_of_typeName_ne (C.values.typeName hf ▸ hf'),
      C.values.typeName hf]
    exact C.fail _
  cases f with
  | function i parameters body captured =>
    -- the identities may differ, what the functions do may not
    obtain ⟨j, captured', rfl, -, hlit⟩ := C.values.function hf
    rw [p.call_function, q.call_function]
    exact C.enter hf hargs (h.bodyRun hlit)
  | _ => exact hother (by simp [Value.typeName])

theorem callMember {object : Expression} {arguments : List Expression} (name : String)
    (hobject : C.Admits object.literals object.names)
    (harguments : C.Admits (Expression.listLiterals arguments) (Expression.listNames arguments)) :
    C.Rel n C.Val (p.callMember object name arguments) (q.callMember object name arguments) := by
  refine C.bind (C.isMath hobject) fun _ a b _ hab => ?_
  refine C.ite (by rw [hab]) ?_ ?_
  · exact C.bind (h.argumentValues harguments) fun _ xs ys _ hargs => C.builtin name _ hargs
  · refine C.bind (h.evaluate hobject) fun _ u v _ htarget => ?_
    refine C.bind (h.argumentValues harguments) fun _ xs ys hn hargs => ?_
    exact C.lift (C.values.method name (C.later hn htarget) hargs)

theorem callValue {callee : Expression} {arguments : List Expression}
    (hcallee : C.Admits callee.literals callee.names)
    (harguments : C.Admits (Expression.listLiterals arguments) (Expression.listNames arguments)) :
    C.Rel n C.Val (p.callValue callee arguments) (q.callValue callee arguments) := by
  refine C.bind (h.evaluate hcallee) fun _ f g _ hf => ?_
  exact C.bind (h.argumentValues harguments) fun _ xs ys hn hargs => h.call (C.later hn hf) hargs

theorem callExpression {callee : Expression} {arguments : List Expression}
    (hcallee : C.Admits callee.literals callee.names)
    (harguments : C.Admits (Expression.listLiterals arguments) (Expression.listNames arguments)) :
    C.Rel n C.Val (p.callExpression callee arguments) (q.callExpression callee arguments) := by
  cases callee with
  | member object name => exact h.callMember name hcallee harguments
  | name name =>
    refine C.bind (C.lookup (hcallee.names name (.head _))) fun _ a b _ hab => ?_
    refine C.ite (by cases hab <;> simp) ?_ (h.callValue hcallee harguments)
    exact C.bind (h.argumentValues harguments) fun _ xs ys _ hargs => C.builtin name _ hargs
  | _ => exact h.callValue hcallee harguments

theorem member {object : Expression} (property : String) (hlit : C.Admits object.literals object.names) :
    C.Rel n C.Val (p.member object property) (q.member object property) := by
  refine C.bind (C.isMath hlit) fun _ a b _ hab => ?_
  refine C.ite (by rw [hab]) ?_ ?_
  · refine C.ite Iff.rfl (C.pure (C.values.number _)) ?_
    exact C.ite Iff.rfl (C.pure (C.values.number _)) (C.fail _)
  · exact C.bind (h.evaluate hlit) fun _ u v _ htarget => C.lift (C.values.member property htarget)

theorem typeOf {operand : Expression} (hlit : C.Admits operand.literals operand.names) :
    C.Rel n C.Val (p.typeOf operand) (q.typeOf operand) := by
  have hother {e : Expression} (he : C.Admits e.literals e.names) :
      C.Rel n C.Val (do return .text (← p.evaluate e).typeName)
        (do return .text (← q.evaluate e).typeName) := by
    refine C.bind (h.evaluate he) fun _ a b _ hab => C.pure ?_
    rw [C.values.typeName hab]
    exact C.values.kind b
  cases operand with
  | name name =>
    refine C.bind (C.lookup (hlit.names name (.head _))) fun _ a b _ hab => C.pure ?_
    cases hab with
    | none => exact C.values.kind .undefined
    | @some u v hv => simpa [C.values.typeName hv] using C.values.kind v
  | _ => exact hother hlit

/-- What the coupling says of the parts it says of an expression. -/
theorem expressionValue {expression : Expression} (hlit : C.Admits expression.literals expression.names) :
    C.Rel n C.Val (p.expressionValue expression) (q.expressionValue expression) := by
  cases expression with
  | number value => exact C.pure (C.values.number value)
  | text text => exact C.pure (C.values.literal (hlit.literals text (.head _)))
  | boolean value => exact C.pure (C.values.boolean value)
  | null => exact C.pure C.values.null
  | undefined => exact C.pure C.values.undefined
  | name name => exact C.read (hlit.names name (.head _))
  | unary operator operand =>
    cases operator with
    | typeof => exact h.typeOf hlit
    | _ => exact C.bind (h.evaluate hlit) fun _ a b _ hab => C.pure (C.values.applyUnary _ hab)
  | binary operator left right =>
    obtain ⟨hlitLeft, hlitRight⟩ := hlit.append
    refine C.bind (h.evaluate hlitLeft) fun _ a b _ hleft => ?_
    -- the left values still match when the right ones have been found
    exact C.bind (h.evaluate hlitRight) fun _ c d hn hright =>
      C.lift (C.values.binary operator (C.later hn hleft) hright)
  | logical operator left right =>
    obtain ⟨hlitLeft, hlitRight⟩ := hlit.append
    refine C.bind (h.evaluate hlitLeft) fun _ a b _ hleft => ?_
    exact C.ite (by rw [C.values.decides operator hleft]) (C.pure hleft) (h.evaluate hlitRight)
  | conditional test consequent alternative =>
    obtain ⟨hlitTest, hbranches⟩ := hlit.append
    obtain ⟨hconsequent, halternative⟩ := hbranches.append
    refine C.bind (h.evaluate hlitTest) fun _ a b _ htest => ?_
    exact C.ite (by rw [C.values.isTruthy htest]) (h.evaluate hconsequent) (h.evaluate halternative)
  | assign name operator value =>
    obtain ⟨hname, hnames⟩ := List.forall_mem_cons.1 hlit.names
    refine C.bind (h.evaluate ⟨hlit.literals, hnames⟩) fun _ a b _ hvalue => ?_
    refine C.bind (C.assignedValue hname operator hvalue) fun _ u v _ hv => ?_
    exact C.bind (C.assign hname hv) fun _ _ _ hn _ => C.pure (C.later hn hv)
  | update name upwards inFront =>
    have hname := hlit.names name (.head _)
    refine C.bind (C.read hname) fun _ a b _ hold => ?_
    rw [C.values.toNumber hold]
    refine C.bind (C.assign hname (C.values.number _)) fun _ _ _ _ _ => ?_
    exact C.pure (C.values.number _)
  | member object property => exact h.member property hlit
  | call callee arguments =>
    obtain ⟨hcallee, harguments⟩ := hlit.append
    exact h.callExpression hcallee harguments
  | function parameters body => exact C.close parameters hlit

theorem declareAll {bindings : List (String × Option Expression)}
    (hlit : C.Admits (Statement.bindingLiterals bindings) (Statement.bindingNames bindings)) :
    C.Rel n (fun _ => Eq) (p.declareAll bindings) (q.declareAll bindings) := by
  induction bindings generalizing n with
  | nil => exact C.pure rfl
  | cons binding rest ih =>
    obtain ⟨name, value⟩ := binding
    obtain ⟨hvalue, hrest⟩ := hlit.append
    cases value with
    | none =>
      refine C.bind (C.pure C.values.undefined) fun _ a b _ hab => ?_
      exact C.bind (C.declare name hab) fun _ _ _ _ _ => ih hrest
    | some expression =>
      refine C.bind (h.evaluate hvalue) fun _ a b _ hab => ?_
      exact C.bind (C.declare name hab) fun _ _ _ _ _ => ih hrest

/-- Loops that may make corresponding numbers of rounds.  Induction on the rounds: a side that has none
left is exhausted. -/
theorem loop {test : Expression} {body : Statement} (hlitTest : C.Admits test.literals test.names)
    (hlitBody : C.Admits body.literals body.names) {k m : Nat} (hrounds : C.Rounds k m) :
    C.Rel n C.Flows (p.loop test body (k + 1)) (q.loop test body (m + 1)) := by
  induction k generalizing n m with
  | zero =>
    refine C.bind (h.evaluate hlitTest) fun _ a b _ htest => ?_
    refine C.ite (by rw [C.values.isTruthy htest]) ?_ (C.pure .next)
    refine C.bind (h.execute hlitBody) fun _ f g _ hflow => ?_
    cases hflow with
    | returned hv => exact C.pure (.returned hv)
    | next =>
      -- the next round would be the first one too many on the left
      cases m with
      | zero => exact C.exhausted
      | succ m => exact C.exhausted_left hrounds
  | succ k ih =>
    refine C.bind (h.evaluate hlitTest) fun _ a b _ htest => ?_
    refine C.ite (by rw [C.values.isTruthy htest]) ?_ (C.pure .next)
    refine C.bind (h.execute hlitBody) fun _ f g _ hflow => ?_
    cases hflow with
    | returned hv => exact C.pure (.returned hv)
    | next =>
      cases m with
      | zero => exact C.exhausted_right hrounds
      | succ m => exact ih (C.rounds_pred hrounds)

/-- What the coupling says of the parts it says of a statement. -/
theorem statementFlow {statement : Statement} (hlit : C.Admits statement.literals statement.names) :
    C.Rel n C.Flows (p.statementFlow statement) (q.statementFlow statement) := by
  cases statement with
  | expression expression =>
    have hvalue := C.bind (n := n) (W := fun _ => Eq) (h.evaluate hlit) fun _ _ _ _ _ =>
      C.pure (rfl : () = ())
    exact C.bind hvalue fun _ _ _ _ _ => C.pure .next
  | declare bindings => exact C.bind (h.declareAll hlit) fun _ _ _ _ _ => C.pure .next
  | conditional test consequent alternative =>
    obtain ⟨hlitTest, hbranches⟩ := hlit.append
    obtain ⟨hconsequent, halternative⟩ := hbranches.append
    refine C.bind (h.evaluate hlitTest) fun _ a b _ htest => ?_
    refine C.ite (by rw [C.values.isTruthy htest]) (h.execute hconsequent) ?_
    cases alternative with
    | none => exact C.pure .next
    | some statement => exact h.execute halternative
  | loop test body =>
    obtain ⟨hlitTest, hlitBody⟩ := hlit.append
    exact C.bind C.stepsLeft fun _ k m _ hrounds => h.loop hlitTest hlitBody hrounds
  | result value =>
    cases value with
    | none => exact C.pure (.returned C.values.undefined)
    | some expression =>
      exact C.bind (h.evaluate hlit) fun _ a b _ hab => C.pure (.returned hab)
  | block statements => exact h.executeAll hlit
  | empty => exact C.pure .next

end AdmittedParts

/-- Two interpreters that a coupling which admits every literal and every name cannot tell apart.  What this
says of runs is stated for the first stage. -/
structure Parts (p : Interpreter σ) (q : Interpreter τ) : Prop where
  admits : ∀ literals names, C.Admits literals names
  parts : C.AdmittedParts p q

namespace Parts

variable {C}
variable {p : Interpreter σ} {q : Interpreter τ} (h : C.Parts p q)
include h

theorem evaluate (expression : Expression) :
    C.Rel 0 C.Val (p.evaluate expression) (q.evaluate expression) :=
  h.parts.evaluate (h.admits _ _)

theorem execute (statement : Statement) :
    C.Rel 0 C.Flows (p.execute statement) (q.execute statement) :=
  h.parts.execute (h.admits _ _)

theorem executeAll (statements : List Statement) :
    C.Rel 0 C.Flows (p.executeAll statements) (q.executeAll statements) :=
  h.parts.executeAll (h.admits _ _)

theorem bodyValue (statements : List Statement) :
    C.Rel 0 C.Val (p.bodyValue statements) (q.bodyValue statements) :=
  h.parts.bodyValue (h.admits _ _)

theorem bodyRun (body : FunctionBody) : C.Rel 0 C.Val (p.bodyRun body) (q.bodyRun body) :=
  h.parts.bodyRun (h.admits _ _)

theorem call {f g : Value} {xs ys : List Value} (hf : C.Val 0 f g)
    (hargs : C.Vals 0 xs ys) : C.Rel 0 C.Val (p.call f xs) (q.call g ys) :=
  h.parts.call hf hargs

theorem expressionValue (expression : Expression) :
    C.Rel 0 C.Val (p.expressionValue expression) (q.expressionValue expression) :=
  h.parts.expressionValue (h.admits _ _)

theorem statementFlow (statement : Statement) :
    C.Rel 0 C.Flows (p.statementFlow statement) (q.statementFlow statement) :=
  h.parts.statementFlow (h.admits _ _)

end Parts

/-- A coupling that also respects what a level of trees adds: the step it costs and the depth. -/
structure Steps : Prop where
  tick : ∀ {n}, C.Rel n (fun _ => Eq) Run.tick Run.tick
  limit : ∀ {α β : Type} {n} {V : Nat → α → β → Prop},
    C.Rel n V (throw (.recursionLimit maxDepth)) (throw (.recursionLimit maxDepth))
  deeper : ∀ {α β : Type} {n} {V : Nat → α → β → Prop} {x y},
    C.Rel n V x y → C.Rel n V (Run.deeper x) (Run.deeper y)

variable {C}

theorem AdmittedParts.above (hC : C.Steps) {p : Interpreter σ} {q : Interpreter τ}
    (h : C.AdmittedParts p q) : C.AdmittedParts p.above q.above where
  evaluate hlit := C.bind hC.tick fun _ _ _ _ _ => hC.deeper (h.expressionValue hlit)
  execute hlit := C.bind hC.tick fun _ _ _ _ _ => hC.deeper (h.statementFlow hlit)

/-- Below the last level both sides spend a step and refuse to go on. -/
theorem Steps.bottom (hC : C.Steps) :
    C.AdmittedParts (Interpreter.ofLevels 0) (Interpreter.ofLevels 0) where
  evaluate _ := C.bind hC.tick fun _ _ _ _ _ => hC.limit
  execute _ := C.bind hC.tick fun _ _ _ _ _ => hC.limit

/-- Such a coupling cannot tell the interpreters of the two hosts apart. -/
theorem Steps.interpreterOn (hC : C.Steps) :
    C.AdmittedParts (Script.interpreterOn σ) (Script.interpreterOn τ) := by
  unfold Script.interpreterOn
  generalize maxDepth = levels
  induction levels with
  | zero => exact hC.bottom
  | succ levels ih => exact ih.above hC

end Coupling

end SequenceNotation.Script
