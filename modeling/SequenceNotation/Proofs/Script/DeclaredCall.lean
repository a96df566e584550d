import SequenceNotation.Proofs.Script.Balance
import SequenceNotation.Proofs.Script.FunctionSource
import SequenceNotation.Proofs.Script.Meaning
import SequenceNotation.Proofs.Script.OneGlobalApart

/-!
# Functions compiled and declared

A function that is compiled is called on a machine of its own, where its name is not bound.  So it does what it would do
if it were declared and called in one machine, under whatever name it has no use for, and its own name is one of these
if the body does not speak of the function.  The declaration and what stands around the call take a few steps and levels.
-/

namespace SequenceNotation.Script

open RunOn (outcome)

/-- The literal for a plain value. -/
def Value.literal : Value → Expression
  | .undefined | .function .. => .undefined
  | .null => .null
  | .boolean b => .boolean b
  | .number x => .number x
  | .text s => .text s

section

variable (name : String) (parameters : List String) (body : FunctionBody) (arguments : List Value)

/-- The program that declares a function and does nothing else. -/
def functionDeclaration : List Statement :=
  [.declare [(name, some (.function parameters body))]]

/-- The statement `result = name(arguments)`. -/
def resultOfCall : Statement :=
  .expression (.assign "result" none (.call (.name name) (arguments.map Value.literal)))

/-- The function is declared and called in one machine. -/
def declaredCall : Run Flow :=
  interpreter.executeAll (functionDeclaration name parameters body ++ [resultOfCall name arguments])

/-! ### What the program does -/

/-- The declaration without its levels. -/
def declareFunction : Run Unit := do
  Run.declare name (← Run.close parameters body)

/-- The call without its levels. -/
def callByName : Run Value := do
  if (← Run.lookup? name).isNone then Interpreter.builtin name (.notDefined name) arguments
  else interpreter.call (← Run.read name) arguments

theorem interchangeable_function :
    Interchangeable .none ⟨1, 1⟩ Eq (interpreter.evaluate (.function parameters body)) (Run.close parameters body) := by
  rw [evaluate_eq]
  exact (Interchangeable.expressionValue (.function parameters body)).levelLeft

theorem interchangeable_declareFunction :
    Interchangeable .none ⟨2, 2⟩ (fun flow _ => flow = .next)
      (interpreter.execute (.declare [(name, some (.function parameters body))]))
      (declareFunction name parameters body) := by
  have hstatement : interpreter.statementFlow (.declare [(name, some (.function parameters body))]) =
      (interpreter.evaluate (.function parameters body) >>= Run.declare name) >>= fun _ => pure .next := by
    simp only [Interpreter.statementFlow, Interpreter.declareAll, bind_assoc, pure_bind]
  have hnext (done : Unit) :
      Interchangeable .none .none (fun flow _ => flow = .next) (pure Flow.next : Run Flow) (pure done : Run Unit) :=
    .pure rfl
  have hdeclare : Interchangeable .none ⟨1, 1⟩ (fun flow _ => flow = .next)
      ((interpreter.evaluate (.function parameters body) >>= Run.declare name) >>= fun _ => pure Flow.next)
      (declareFunction name parameters body >>= pure) :=
    ((interchangeable_function parameters body).bind_eq fun value => Interchangeable.declare name value).bind_eq hnext
  rw [bind_pure] at hdeclare
  rw [execute_eq, hstatement]
  exact hdeclare.levelLeft

variable {arguments} in
theorem interchangeable_literals (h : ∀ value ∈ arguments, value.typeName ≠ "function") :
    Interchangeable .none ⟨arguments.length, 1⟩ Eq (interpreter.argumentValues (arguments.map Value.literal))
      (pure arguments) := by
  induction arguments with
  | nil => exact (Interchangeable.pure rfl).mono (Extra.none_le _) (Extra.none_le _)
  | cons value rest ih =>
    obtain ⟨hvalue, hrest⟩ := List.forall_mem_cons.1 h
    have hliteral : interpreter.expressionValue value.literal = pure value := by
      cases value with
      | function => exact absurd rfl hvalue
      | _ => rfl
    have hown : Interchangeable .none ⟨1, 1⟩ Eq (interpreter.evaluate value.literal) (pure value) := by
      rw [evaluate_eq, hliteral]
      exact (Interchangeable.pure rfl).levelLeft
    have hboth := hown.bind_eq fun a => (ih hrest).bind_eq fun values =>
      Interchangeable.pure (rfl : (a :: values) = a :: values)
    rw [List.length_cons, Nat.add_comm]
    exact hboth

variable {arguments} in
theorem interchangeable_callByName (h : ∀ value ∈ arguments, value.typeName ≠ "function") :
    Interchangeable .none ⟨arguments.length + 2, 2⟩ Eq
      (interpreter.evaluate (.call (.name name) (arguments.map Value.literal))) (callByName name arguments) := by
  have hname : Interchangeable .none ⟨1, 1⟩ Eq (interpreter.evaluate (.name name)) (Run.read name) := by
    rw [evaluate_eq]
    exact (Interchangeable.read name).levelLeft
  have hbuiltin : Interchangeable .none ⟨arguments.length + 1, 1⟩ Eq
      (interpreter.argumentValues (arguments.map Value.literal) >>= Interpreter.builtin name (.notDefined name))
      (pure arguments >>= Interpreter.builtin name (.notDefined name)) :=
    ((interchangeable_literals h).bind_eq fun values => Interchangeable.builtin name _ values).mono (Extra.none_le _)
      ⟨Nat.le_succ _, Nat.le_refl _⟩
  have hcall : Interchangeable .none ⟨arguments.length + 1, 1⟩ Eq
      (interpreter.callValue (.name name) (arguments.map Value.literal))
      (Run.read name >>= fun function => pure arguments >>= interpreter.call function) :=
    (hname.bind_eq fun function => (interchangeable_literals h).bind_eq fun values =>
      Interchangeable.call function values).mono (Extra.none_le _) ⟨Nat.le_of_eq (Nat.add_comm _ _), Nat.le_refl _⟩
  have hboth : Interchangeable .none ⟨arguments.length + 1, 1⟩ Eq
      (interpreter.expressionValue (.call (.name name) (arguments.map Value.literal))) (callByName name arguments) :=
    (Extra.none_andThen ⟨arguments.length + 1, 1⟩).symm ▸
      (Interchangeable.lookup? name).bind_eq fun found => Interchangeable.ite hbuiltin hcall
  rw [evaluate_eq]
  exact hboth.levelLeft

/-- Both without the levels around them. -/
def strippedCall : Run Unit := do
  declareFunction name parameters body
  Run.assign "result" (← callByName name arguments)

variable {arguments} in
theorem interchangeable_resultOfCall (h : ∀ value ∈ arguments, value.typeName ≠ "function") :
    Interchangeable .none ⟨arguments.length + 4, 4⟩ (fun _ _ => True) (interpreter.execute (resultOfCall name arguments))
      (callByName name arguments >>= Run.assign "result") := by
  have hdone {α β : Type} (a : α) (b : β) :
      Interchangeable .none .none (fun _ _ => True) (pure a : Run α) (pure b : Run β) := .pure trivial
  have hassign : Interchangeable .none ⟨arguments.length + 2, 2⟩ (fun _ _ => True)
      (interpreter.expressionValue (.assign "result" none (.call (.name name) (arguments.map Value.literal))))
      (callByName name arguments >>= fun value => Run.assign "result" value >>= pure) :=
    (interchangeable_callByName name h).bind_eq fun value =>
      (Interchangeable.assign "result" value).bind_eq fun _ => hdone value _
  have hevaluate := hassign.levelLeft
  rw [← evaluate_eq] at hevaluate
  have hstatement : Interchangeable .none ⟨arguments.length + 3, 3⟩ (fun _ _ => True)
      (interpreter.statementFlow (resultOfCall name arguments))
      (((callByName name arguments >>= fun value => Run.assign "result" value >>= pure) >>= pure) >>= pure) :=
    (hevaluate.bind fun _ b _ => hdone () b).bind fun _ b _ => hdone Flow.next b
  simp only [bind_pure] at hstatement
  rw [execute_eq]
  exact hstatement.levelLeft

variable {arguments} in
theorem interchangeable_declaredCall (h : ∀ value ∈ arguments, value.typeName ≠ "function") :
    Interchangeable .none ⟨arguments.length + 6, 4⟩ (fun _ _ => True) (declaredCall name parameters body arguments)
      (strippedCall name parameters body arguments) := by
  have hrun : declaredCall name parameters body arguments =
      interpreter.execute (.declare [(name, some (.function parameters body))]) >>= following [resultOfCall name arguments] :=
    executeAll_cons _ _
  have hrest (flow : Flow) (done : Unit) (hflow : flow = .next) :
      Interchangeable .none ⟨arguments.length + 4, 4⟩ (fun _ _ => True) (following [resultOfCall name arguments] flow)
        (callByName name arguments >>= Run.assign "result") := by
    subst hflow
    show Interchangeable _ _ _ (interpreter.executeAll [resultOfCall name arguments]) _
    rw [executeAll_singleton]
    exact interchangeable_resultOfCall name h
  rw [hrun]
  exact ((interchangeable_declareFunction name parameters body).bind hrest).mono (Extra.none_le _)
    ⟨Nat.le_of_eq (Nat.add_comm _ _), Nat.le_refl _⟩

/-! ### The function on a new machine -/

/-- The first function that a machine creates. -/
def firstFunction : Value :=
  .function 0 parameters body []

/-- A new machine that has declared the function, at so deep a level. -/
def declaredMachine (budget : Budget) (depth : Nat) : Machine :=
  { budget, depth, globals := [(name, firstFunction parameters body)], created := 1 }

/-- The call alone, on that machine. -/
def runDeclared (budget : Budget) (depth : Nat) : Except Fault Value × Machine :=
  (interpreter.call (firstFunction parameters body) arguments).outcome (declaredMachine name parameters body budget depth)

theorem get?_declaredMachine (budget : Budget) (depth : Nat) (other : String) :
    (declaredMachine name parameters body budget depth).globals.get? other =
      if other = name then some (firstFunction parameters body) else none :=
  Frame.get?_cons _ _ _

theorem outcome_declareFunction (budget : Budget) (depth : Nat) :
    (declareFunction name parameters body).outcome { budget, depth } =
      (.ok (), declaredMachine name parameters body budget depth) :=
  rfl

theorem outcome_callByName (budget : Budget) (depth : Nat) :
    (callByName name arguments).outcome (declaredMachine name parameters body budget depth) =
      runDeclared name parameters body arguments budget depth := by
  have hlookup : (declaredMachine name parameters body budget depth).lookup? name = some (firstFunction parameters body) :=
    (get?_declaredMachine name parameters body budget depth name).trans (if_pos rfl)
  have hfound : (Run.lookup? name : Run (Option Value)).outcome (declaredMachine name parameters body budget depth) =
      (.ok (some (firstFunction parameters body)), declaredMachine name parameters body budget depth) := by
    rw [← hlookup]
    rfl
  have hread : (Run.read name : Run Value).outcome (declaredMachine name parameters body budget depth) =
      (.ok (firstFunction parameters body), declaredMachine name parameters body budget depth) :=
    RunOn.outcome_bind_ok hfound
  exact (RunOn.outcome_bind_ok hfound).trans (RunOn.outcome_bind_ok hread)

/-- The result is that of the call. -/
theorem outcome_strippedCall (budget : Budget) (depth : Nat) :
    globalAfter "result" ((strippedCall name parameters body arguments).outcome { budget, depth }) =
        (runDeclared name parameters body arguments budget depth).1 ∧
      (RunsShort ((strippedCall name parameters body arguments).outcome { budget, depth }) ↔
        RunsShort (runDeclared name parameters body arguments budget depth)) := by
  have hrun : (strippedCall name parameters body arguments).outcome { budget, depth } =
      (callByName name arguments >>= Run.assign "result").outcome (declaredMachine name parameters body budget depth) :=
    RunOn.outcome_bind_ok (outcome_declareFunction name parameters body budget depth)
  rw [hrun, RunOn.outcome_bind, outcome_callByName]
  -- the call is over, so that the value is assigned to a global variable
  have hcalls : (runDeclared name parameters body arguments budget depth).2.calls = [] := (call_balanced _ _ _).2
  generalize runDeclared name parameters body arguments budget depth = after at hcalls ⊢
  obtain ⟨result, n⟩ := after
  cases result with
  | ok value =>
    have hresult : (n.assign "result" value).global "result" = value := by
      replace hcalls : n.calls = [] := hcalls
      unfold Machine.assign Machine.global
      rw [hcalls]
      dsimp only
      rw [Frame.get?_set, if_pos rfl]
      rfl
    exact ⟨congrArg Except.ok hresult, iff_of_false (not_runsShort_ok () _) (not_runsShort_ok value n)⟩
  | error fault => exact ⟨rfl, runsShort_error.trans runsShort_error.symm⟩

end

/-! ### Compiled functions -/

namespace Callable

/-- The value of the function. -/
def value (callable : Callable) : Value :=
  .function callable.identity callable.parameters callable.body callable.captured

/-- A call on a new machine at so deep a level. -/
def run (callable : Callable) (budget : Budget) (depth : Nat) (arguments : List Value) : Except Fault Value × Machine :=
  (interpreter.call callable.value arguments).outcome { budget, depth, created := callable.created }

theorem call_eq (callable : Callable) (budget : Budget) (arguments : List Value) :
    callable.call budget arguments = (callable.run budget 0 arguments).1 :=
  rfl

/-- The function that is compiled on a new machine. -/
def first (parameters : List String) (body : FunctionBody) : Callable :=
  { identity := 0, parameters, body, captured := [], created := 1 }

/-- From the source of a declaration, the function is compiled that the declaration creates. -/
theorem eq_first_of_compile {source name : String} {parameters : List String} {body : FunctionBody} {budget : Budget}
    {callable : Callable} (hsource : parseProgram source = .ok (functionDeclaration name parameters body))
    (h : compile budget source = .ok callable) : callable = first parameters body := by
  unfold compile at h
  split at h
  · -- in parentheses the source is a function literal
    rename_i expression hexpression
    obtain rfl := parse_parenthesised_declaration hsource hexpression
    split at h
    · rename_i value machine hrun
      have hclose : (Run.close parameters body : Run Value).outcome { budget } =
          (.ok (firstFunction parameters body), { budget, created := 1 }) := rfl
      obtain ⟨rfl, hmachine⟩ := (interchangeable_function parameters body).ok_alike (.refl { budget }) hrun hclose
      cases h
      rw [← hmachine.created]
      rfl
    · cases h
  · -- otherwise the declaration is run, and its name is looked up
    have hdeclared : declaredName? (functionDeclaration name parameters body) = some name := rfl
    have hreadable : readable (parseProgram source) = .ok (functionDeclaration name parameters body) := by
      rw [hsource]
      rfl
    rw [hreadable] at h
    simp only [bind, Except.bind, hdeclared] at h
    split at h
    · rename_i flow machine hrun
      rw [functionDeclaration, executeAll_singleton] at hrun
      obtain ⟨-, hmachine⟩ := (interchangeable_declareFunction name parameters body).ok_alike (.refl { budget }) hrun
        (outcome_declareFunction name parameters body budget 0)
      have hglobal : machine.global name = firstFunction parameters body := by
        unfold Machine.global
        rw [← hmachine.globals, get?_declaredMachine, if_pos rfl]
        rfl
      rw [hglobal] at h
      cases h
      rw [← hmachine.created]
      rfl
    · cases h

end Callable

section

variable {name : String} {parameters : List String} {body : FunctionBody} {arguments : List Value}
  (hname : name ∈ parameters ∨ name ∉ body.names) (harguments : ∀ value ∈ arguments, value.typeName ≠ "function")
include hname

theorem firstFunction_avoids : (firstFunction parameters body).Avoids name (name ∈ parameters) := by
  refine .function (fun other hother => ?_) .inl (List.forall_mem_nil _)
  rcases hname with hparameter | hbody
  · exact .inr hparameter
  · exact .inl fun heq => hbody (heq ▸ hother)

include harguments

variable {g : Grant} {budget budget' : Budget} {depth depth' : Nat}

/-- The call on the machine that has declared the function, and the one of the compiled function. -/
theorem keeps_runDeclared
    (hroom : (declaredMachine name parameters body budget depth).Roomier g .none
      { budget := budget', depth := depth', created := 1 }) :
    Keeps g (fun _ _ => True) Eq (runDeclared name parameters body arguments budget depth)
      ((Callable.first parameters body).run budget' depth' arguments) := by
  have hbeside : (declaredMachine name parameters body budget depth).Beside name (name ∈ parameters)
      { budget := budget', depth := depth', created := 1 } := by
    refine ⟨fun other hother => ?_, .nil, rfl, fun _ => List.forall_mem_nil _⟩
    rw [get?_declaredMachine, if_neg hother]
    exact .none
  exact keeps_call hbeside hroom (firstFunction_avoids hname) fun value hvalue => Value.avoids_of_plain (harguments value hvalue)

/-- Both the other way round. -/
theorem keeps_runCompiled
    (hroom : Machine.Roomier g .none { budget := budget', depth := depth', created := 1 }
      (declaredMachine name parameters body budget depth)) :
    Keeps g (fun _ _ => True) Eq ((Callable.first parameters body).run budget' depth' arguments)
      (runDeclared name parameters body arguments budget depth) := by
  have hbeside : Machine.Beside name (name ∈ parameters) { budget := budget', depth := depth', created := 1 }
      (declaredMachine name parameters body budget depth) := by
    refine ⟨fun other hother => ?_, .nil, rfl, fun _ => List.forall_mem_nil _⟩
    rw [get?_declaredMachine, if_neg hother]
    exact .none
  exact keeps_call hbeside hroom (firstFunction_avoids hname) fun value hvalue => Value.avoids_of_plain (harguments value hvalue)

end

/-! ### Both calls -/

/-- New machines of which the right one has the room that it needs. -/
theorem roomier_new {extra : Extra} {m m' : Machine} (hspent : m.spent = 0) (hspent' : m'.spent = 0)
    (htime : m'.budget.hasExpired = false) (hsteps : m.budget.fuel + extra.steps ≤ m'.budget.fuel)
    (hwithin : m.depth ≤ maxDepth) (hlevels : m'.depth + extra.levels ≤ m.depth) : m.Roomier .everything extra m' where
  time _ := htime
  steps _ := by
    rw [hspent, hspent']
    exact hsteps
  within _ := hwithin
  levels _ := hlevels

/-- A global variable is the same after runs that end alike with the same variables. -/
theorem globalAfter_eq {α β : Type} {V : α → β → Prop} {after : Except Fault α × Machine}
    {after' : Except Fault β × Machine} (name : String)
    (h : (∃ a b, after.1 = .ok a ∧ after'.1 = .ok b ∧ V a b) ∨ ∃ fault, after.1 = .error fault ∧ after'.1 = .error fault)
    (hafter : after.2.SameVariables after'.2) : globalAfter name after = globalAfter name after' := by
  obtain ⟨result, m⟩ := after
  obtain ⟨result', m'⟩ := after'
  rcases h with ⟨a, b, rfl, rfl, -⟩ | ⟨fault, rfl, rfl⟩
  · have hglobals : m'.globals = m.globals := hafter.globals
    show Except.ok (m.global name) = Except.ok (m'.global name)
    unfold Machine.global
    rw [hglobals]
  · rfl

/-- Whoever calls a compiled function may as well declare and call it in one machine, under a name that is one of its
parameters or that its body does not speak of.  Both find the same value or the same fault, unless one of them ends for
want of time, steps or levels.  With as many steps the compiled function does not, if the declared one does not, which
takes its arguments and six steps and four levels more. -/
theorem compiled_call_eq_declared {source name : String} {parameters : List String} {body : FunctionBody}
    {budget₀ : Budget} {callable : Callable} {other : String} {arguments : List Value}
    (hsource : parseProgram source = .ok (functionDeclaration name parameters body))
    (hcallable : Callable.compile budget₀ source = .ok callable) (hother : other ∈ parameters ∨ other ∉ body.names)
    (harguments : ∀ value ∈ arguments, value.typeName ≠ "function") (budget budget' : Budget) :
    (¬RunsShort (runFresh budget (declaredCall other parameters body arguments)) →
        ¬RunsShort (callable.run budget' 0 arguments) →
          globalAfter "result" (runFresh budget (declaredCall other parameters body arguments)) =
            callable.call budget' arguments) ∧
      (¬RunsShort (runFresh budget (declaredCall other parameters body arguments)) → budget'.hasExpired = false →
        budget.fuel ≤ budget'.fuel → ¬RunsShort (callable.run budget' 0 arguments)) ∧
      (¬RunsShort (callable.run budget' 4 arguments) → budget.hasExpired = false →
        budget'.fuel + (arguments.length + 6) ≤ budget.fuel →
          ¬RunsShort (runFresh budget (declaredCall other parameters body arguments))) := by
  obtain rfl := Callable.eq_first_of_compile hsource hcallable
  have hstrip := interchangeable_declaredCall other parameters body harguments
  have hsame (budget budget' : Budget) (depth : Nat) :
      Machine.SameVariables { budget } { budget := budget', depth } := ⟨rfl, rfl, rfl⟩
  have houtcome := outcome_strippedCall other parameters body arguments
  -- with time and as many steps, the call behind the declaration does not end short
  have hlasts (budget' : Budget) (h : ¬RunsShort (runFresh budget (declaredCall other parameters body arguments)))
      (htime : budget'.hasExpired = false) (hfuel : budget.fuel ≤ budget'.fuel) :
      ¬RunsShort ((strippedCall other parameters body arguments).outcome { budget := budget' }) :=
    hstrip.lasts (hsame budget budget' 0) (roomier_new rfl rfl htime hfuel (Nat.zero_le _) (Nat.le_refl _)) h
  refine ⟨fun h h' => ?_, fun h htime hfuel => ?_, fun h htime hfuel => ?_⟩
  · have hmiddle := hlasts ⟨1, budget.fuel⟩ h rfl (Nat.le_refl _)
    obtain ⟨hresult, hshort⟩ := houtcome ⟨1, budget.fuel⟩ 0
    obtain ⟨halike, hafter⟩ := hstrip.ends_alike (hsame budget ⟨1, budget.fuel⟩ 0) h hmiddle
    have hkeeps := @keeps_runDeclared other parameters body arguments hother harguments .nothing ⟨1, budget.fuel⟩ budget' 0 0
      (.nothing _ _)
    obtain ⟨hends, -⟩ := hkeeps.ends_alike (mt hshort.2 hmiddle) h'
    calc globalAfter "result" (runFresh budget (declaredCall other parameters body arguments))
        = globalAfter "result" ((strippedCall other parameters body arguments).outcome { budget := ⟨1, budget.fuel⟩ }) :=
          globalAfter_eq "result" halike hafter
      _ = (runDeclared other parameters body arguments ⟨1, budget.fuel⟩ 0).1 := hresult
      _ = ((Callable.first parameters body).run budget' 0 arguments).1 := by
          rcases hends with ⟨a, b, ha, hb, rfl⟩ | ⟨fault, ha, hb⟩
          · rw [ha, hb]
          · rw [ha, hb]
      _ = (Callable.first parameters body).call budget' arguments := (Callable.call_eq _ budget' arguments).symm
  · have hmiddle := mt (houtcome budget' 0).2.2 (hlasts budget' h htime hfuel)
    exact (keeps_runDeclared hother harguments
      (roomier_new rfl rfl htime (Nat.le_refl _) (Nat.zero_le _) (Nat.le_refl _))).lasts hmiddle
  · have hdeep : 4 ≤ maxDepth := by decide
    have hroom : Machine.Roomier .everything .none { budget := budget', depth := 4, created := 1 }
        (declaredMachine other parameters body ⟨1, budget'.fuel⟩ 4) :=
      roomier_new rfl rfl rfl (Nat.le_refl _) hdeep (Nat.le_refl _)
    have hmiddle := mt (houtcome ⟨1, budget'.fuel⟩ 4).2.1 ((keeps_runCompiled hother harguments hroom).lasts h)
    exact hstrip.symm.lasts (hsame budget ⟨1, budget'.fuel⟩ 4).symm (roomier_new rfl rfl htime hfuel hdeep (Nat.le_refl _))
      hmiddle

/-- The body of `function twice(x) { return x + x }`. -/
def twiceBody : FunctionBody :=
  .block [.result (some (.binary .add (.name "x") (.name "x")))]

/-- Compiled or declared, `twice` doubles three. -/
theorem compiled_call_eq_declared_twice :
    ∃ callable, Callable.compile ⟨1, 100⟩ "function twice(x) { return x + x }" = .ok callable ∧
      (callable.call ⟨1, 100⟩ [.number 3]).toOption.map Value.toText = some "6" ∧
      globalAfter "result" (runFresh ⟨1, 100⟩ (declaredCall "twice" ["x"] twiceBody [.number 3])) =
        callable.call ⟨1, 100⟩ [.number 3] := by
  have htokens : (tokenize "function twice(x) { return x + x }").toOption =
      some [⟨.keyword .functionWord, 0, 8⟩, ⟨.identifier "twice", 9, 14⟩, ⟨.mark .openParen, 14, 15⟩,
        ⟨.identifier "x", 15, 16⟩, ⟨.mark .closeParen, 16, 17⟩, ⟨.mark .openBrace, 18, 19⟩,
        ⟨.keyword .returnWord, 20, 26⟩, ⟨.identifier "x", 27, 28⟩, ⟨.mark .plus, 29, 30⟩, ⟨.identifier "x", 31, 32⟩,
        ⟨.mark .closeBrace, 33, 34⟩] := by
    decide +kernel
  have hsource : parseProgram "function twice(x) { return x + x }" =
      .ok (functionDeclaration "twice" ["x"] twiceBody) := by
    unfold parseProgram parseSource
    rw [toOption_eq_some_iff.1 htokens]
    rfl
  have hcompile : (Callable.compile ⟨1, 100⟩ "function twice(x) { return x + x }").toOption.isSome = true := by
    decide +kernel
  obtain ⟨callable, hcallable⟩ := Option.isSome_iff_exists.1 hcompile
  rw [toOption_eq_some_iff] at hcallable
  have hdeclared : (runFresh ⟨1, 100⟩ (declaredCall "twice" ["x"] twiceBody [.number 3])).1.toOption.isSome = true := by
    decide +kernel
  have hvalue : (globalAfter "result" (runFresh ⟨1, 100⟩ (declaredCall "twice" ["x"] twiceBody [.number 3]))).toOption.map
      Value.toText = some "6" := by
    decide +kernel
  have hname : "twice" ∉ twiceBody.names := by decide
  have hplain : ∀ value ∈ [Value.number 3], value.typeName ≠ "function" := by decide
  obtain ⟨hsame, hlasts, -⟩ := compiled_call_eq_declared hsource hcallable (.inr hname) hplain ⟨1, 100⟩ ⟨1, 100⟩
  have hequal := hsame (not_runsShort_of_isSome hdeclared) (hlasts (not_runsShort_of_isSome hdeclared) rfl (Nat.le_refl _))
  exact ⟨callable, hcallable, hequal ▸ hvalue, hequal⟩

/-- The fault of a call or the text of its value, for the compiled function and for the declared one. -/
def bothCalls (budget : Budget) (source name : String) (arguments : List Value) :
    Option ((Fault ⊕ String) × (Fault ⊕ String)) := do
  let callable ← (Callable.compile budget source).toOption
  let program ← (parseProgram source).toOption
  let declared := globalAfter "result" (runFresh budget (interpreter.executeAll (program ++ [resultOfCall name arguments])))
  return (shown (callable.call budget arguments), shown declared)
where
  shown : Except Fault Value → Fault ⊕ String
    | .ok value => .inr value.toText
    | .error fault => .inl fault

/-- A function that calls itself does not find itself when it has been compiled, and one that goes 511 levels deep has
too few of them when it has been declared. -/
theorem compiled_call_differs :
    bothCalls ⟨1, 1000⟩ "function f(n) { return n <= 1 ? 1 : n * f(n - 1) }" "f" [.number 3] =
        some (.inl (.runtime (.notDefined "f")), .inr "6") ∧
      bothCalls ⟨1, 2000⟩ "function f(x) { let g = (h, k) => k < 1 ? x : !!!!!!!!!h(h, k - 1); return g(g, 46) }"
          "f" [.boolean true] =
        some (.inr "true", .inl (.recursionLimit maxDepth)) := by
  decide +kernel

end SequenceNotation.Script
