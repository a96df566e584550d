import SequenceNotation.Proofs.Script.Abreast
import SequenceNotation.Proofs.Script.Parentheses

/-!
# Every rule goes abreast

Given two sets of rules to refer back to, each rule reads with the first from the tokens as it does with the
second in front of a closing parenthesis.  The sets may differ in how deep they can go.
-/

namespace SequenceNotation.Script

open Parse

theorem Balanced.quiet {α : Type} {opened left : Nat} {x : Parse α} (h : Balanced opened left x) : Quiet x :=
  .of_yields (h [])

/-- What takes a token anyway takes one if it finds something. -/
theorem Abreast.found {α : Type} {loose : Bool} {starts : List PlacedToken → Prop} {bound : Nat}
    {x y : Parse (Option α)} (h : Abreast loose starts bound (fun _ => 1) x y) :
    Abreast loose starts bound (fun found => if found.isSome then 1 else 0) x y := by
  refine h.mono (fun _ => id) id fun found => ?_
  split <;> decide

theorem Fails.expect {token : Token} : Fails (expect token) [] :=
  fun _ => ⟨_, rfl⟩

theorem abreast_parameters (bound rounds rounds' : Nat) (hrounds : bound ≤ rounds) (hrounds' : bound ≤ rounds') :
    Abreast false Anyhow bound (fun _ => 0) (parameters rounds) (parameters rounds') := by
  have hquiet (rounds : Nat) (_ : Unit) : Quiet (parameters rounds) := (balanced_parameters rounds).quiet
  refine Abreast.loop (F := fun rounds _ => parameters rounds) (G := fun rounds _ => parameters rounds)
    hquiet hquiet (fun bound rounds rounds' ih _ => ?_) bound rounds rounds' hrounds hrounds' ()
  refine .bind .identifier fun name => .eat_closing (.pure _) ?_ (.bind .expect _)
  exact .bind (.expect _) fun _ => .bind (ih _ (by omega) ()) fun _ => .pure _

theorem abreast_parameterList (bound : Nat) :
    Abreast false Anyhow bound (fun _ => 0) parameterList parameterList := by
  exact .eat_closing (.pure _) (.rounds abreast_parameters) fun _ => ⟨_, rfl⟩

/-- Rules that begin nothing at the end of the tokens or in front of a closing parenthesis, and take matched
parentheses. -/
structure Rules.Orderly (rules : Rules) : Prop where
  assignment : ∀ {tokens}, Closed tokens → Fails rules.assignment tokens
  statement : ∀ {tokens}, Closed tokens → Fails rules.statement tokens
  balanced : rules.AllBalanced

theorem orderly_rulesAt (levels : Nat) : (rulesAt levels).Orderly :=
  ⟨fun h => (h.fails_rulesAt levels).1, fun h => (h.fails_rulesAt levels).2, balanced_rulesAt levels⟩

/-- The rules that others refer back to go abreast. -/
structure Rules.GoAbreast (rules rules' : Rules) : Prop where
  statement : ∀ bound, Abreast true Anyhow bound (fun _ => 1) rules.statement rules'.statement
  assignment : ∀ bound, Abreast false Anyhow bound (fun _ => 1) rules.assignment rules'.assignment
  power : ∀ bound, Abreast false Anyhow bound (fun _ => 1) rules.power rules'.power
  prefixed : ∀ bound, Abreast false Anyhow bound (fun _ => 1) rules.prefixed rules'.prefixed
  orderly : rules.Orderly
  orderly' : rules'.Orderly

namespace Rules.GoAbreast

variable {rules rules' : Rules} (h : rules.GoAbreast rules') (bound : Nat)
include h

theorem blockRest (rounds rounds' : Nat) (hrounds : bound ≤ rounds) (hrounds' : bound ≤ rounds') :
    Abreast false Anyhow bound (fun _ => 1) (rules.blockRest rounds) (rules'.blockRest rounds') := by
  refine Abreast.loop (F := fun rounds _ => rules.blockRest rounds) (G := fun rounds _ => rules'.blockRest rounds)
    (fun rounds _ => (h.orderly.balanced.blockRest rounds).quiet) (fun rounds _ => (h.orderly'.balanced.blockRest rounds).quiet)
    (fun bound rounds rounds' ih _ => ?_) bound rounds rounds' hrounds hrounds' ()
  refine .peek (Fails.ended (.complain _)) ?_ fun token => ?_
  · -- the first complains, and the second finds no statement
    exact .of_fails (.complain _) fun hclosed => (h.orderly'.statement hclosed).bind _
  · have hstatement : Abreast false (StartsWith (some token)) bound (fun _ => 1)
        (do return (← rules.statement) :: (← rules.blockRest rounds))
        (do return (← rules'.statement) :: (← rules'.blockRest rounds')) := by
      refine (h.statement bound).starting.bind_of_ended (fun first => ?_) fun _ first depth => ?_
      · -- behind a statement that both read, the next rounds follow
        exact .bind (ih _ (Nat.le_refl _) ()).nothing fun _ => .pure _
      · -- a statement that ends with the tokens leaves the block open
        cases rounds with
        | zero => exact Fails.ended (.bind (.complain _) _) depth
        | succ rounds => exact Fails.ended (.bind (.peek (.complain _)) _) depth
    rcases token with _ | _ | _ | _ | mark
    case mark =>
      cases mark with
      | closeBrace => exact .advance_next (.pure _)
      | _ => exact hstatement
    all_goals exact hstatement

theorem block : Abreast false Anyhow bound (fun _ => 1) rules.block rules'.block :=
  .rounds h.blockRest

theorem functionRest : Abreast false Anyhow bound (fun _ => 1) rules.functionRest rules'.functionRest :=
  .bind (.expect _) fun _ => .bind (abreast_parameterList _) fun _ =>
    .bind (Abreast.expect _).nothing fun _ => .bind (h.block _).nothing fun _ => .pure _

theorem argumentsRest (rounds rounds' : Nat) (hrounds : bound ≤ rounds) (hrounds' : bound ≤ rounds') :
    Abreast false Anyhow bound (fun _ => 0) (rules.argumentsRest rounds) (rules'.argumentsRest rounds') := by
  refine Abreast.loop (F := fun rounds _ => rules.argumentsRest rounds)
    (G := fun rounds _ => rules'.argumentsRest rounds)
    (fun rounds _ => (h.orderly.balanced.argumentsRest rounds).quiet) (fun rounds _ => (h.orderly'.balanced.argumentsRest rounds).quiet)
    (fun bound rounds rounds' ih _ => ?_) bound rounds rounds' hrounds hrounds' ()
  refine .bind (h.assignment _) fun _ => .eat_closing (.pure _) ?_ (.bind .expect _)
  exact .bind (.expect _) fun _ => .bind (ih _ (by omega) ()) fun _ => .pure _

theorem argumentList : Abreast false Anyhow bound (fun _ => 0) rules.argumentList rules'.argumentList := by
  have hend : Fails (rules.argumentsRest 1) [] := (h.orderly.assignment .nil).bind _
  exact .eat_closing (.pure _) (.rounds h.argumentsRest) fun depth => hend depth

theorem primary : Abreast false Anyhow bound (fun _ => 1) rules.primary rules'.primary := by
  refine .peek (Fails.ended (.complain _)) (.complain _ _) fun token => ?_
  cases token with
  | number value => exact .advance_next (.pure _)
  | string text => exact .advance_next (.pure _)
  | identifier name => exact .advance_next (.pure _)
  | keyword word =>
    cases word with
    | trueWord | falseWord | nullWord | undefinedWord => exact .advance_next (.pure _)
    | functionWord =>
      -- The name of a function literal is left out, so both go on behind it if there is one.
      have hrest (bound : Nat) := (h.functionRest bound).nothing
      refine .advance_next (.peek (hrest 0).quiet' (hrest _).starting fun token => ?_)
      cases token with
      | identifier name => exact .advance_next (hrest _)
      | _ => exact (hrest _).starting
    | _ => exact .complain _ _
  | mark mark =>
    cases mark with
    | openParen =>
      exact .advance_next (.bind (h.assignment _).nothing fun _ =>
        .bind (Abreast.expect _).nothing fun _ => .pure _)
    | _ => exact .complain _ _

omit h in
theorem countedBehind (expression : Expression) (upwards : Bool) (token : Token) :
    Abreast false (StartsWith (some token)) bound (fun _ => 1) (Rules.countedBehind expression upwards)
      (Rules.countedBehind expression upwards) := by
  refine .descend ?_
  cases expression with
  | name name => exact .advance_next (.pure _)
  | _ => exact .complain _ _

theorem suffixes (rounds rounds' : Nat) (hrounds : bound ≤ rounds) (hrounds' : bound ≤ rounds')
    (expression : Expression) :
    Abreast false Anyhow bound (fun _ => 0) (rules.suffixes rounds expression)
      (rules'.suffixes rounds' expression) := by
  refine Abreast.loop (fun rounds expression => (h.orderly.balanced.suffixes rounds expression).quiet)
    (fun rounds expression => (h.orderly'.balanced.suffixes rounds expression).quiet)
    (fun bound rounds rounds' ih expression => ?_) bound rounds rounds' hrounds hrounds' expression
  refine .peek (quiet_pure _)
    (.pure _) fun token => ?_
  rcases token with _ | _ | _ | _ | mark
  case mark =>
    cases mark with
    | openParen =>
      exact .descend (.advance_next (.bind (h.argumentList _) fun _ => ih _ (by omega) _))
    | dot => exact .descend (.advance_next (.bind Abreast.identifier.nothing fun _ => ih _ (by omega) _))
    | increment => exact .bind (countedBehind _ _ _ _) fun _ => ih _ (by omega) _
    | decrement => exact .bind (countedBehind _ _ _ _) fun _ => ih _ (by omega) _
    | _ => exact .pure _
  all_goals exact .pure _

theorem operatorFirst (operator : UnaryOperator) (token : Token) :
    Abreast false (StartsWith (some token)) bound (fun _ => 1) (rules.operatorFirst operator)
      (rules'.operatorFirst operator) :=
  .advance_next (.bind (h.prefixed _).nothing fun _ => .pure _)

theorem unary : Abreast false Anyhow bound (fun _ => 1) rules.unary rules'.unary := by
  have hcounted (upwards : Bool) (token : Token) : Abreast false (StartsWith (some token)) bound (fun _ => 1)
      (countedName upwards) (countedName upwards) :=
    .advance_next (.bind Abreast.identifier.nothing fun _ => .pure _)
  have hprimary : Abreast false Anyhow bound (fun _ => 1)
      (do
        let expression ← rules.primary
        rules.suffixes (← rounds) expression)
      (do
        let expression ← rules'.primary
        rules'.suffixes (← rounds) expression) :=
    .bind (h.primary _) fun expression => .rounds fun bound rounds rounds' hrounds hrounds' =>
      h.suffixes bound rounds rounds' hrounds hrounds' expression
  refine .peek hprimary.quiet' hprimary.starting fun token => ?_
  cases token with
  | keyword word =>
    cases word with
    | typeofWord => exact h.operatorFirst _ _ _
    | _ => exact hprimary.starting
  | mark mark =>
    cases mark with
    | minus | plus | not => exact h.operatorFirst _ _ _
    | increment | decrement => exact hcounted _ _
    | _ => exact hprimary.starting
  | _ => exact hprimary.starting

theorem exponent : Abreast false Anyhow bound (fun _ => 1) rules.exponent rules'.exponent :=
  .bind (h.unary _) fun _ =>
    .eat (by decide) (.bind (h.power _).nothing fun _ => .pure _) (.pure _)

omit h in
theorem chain {level : List Joiner} {operand operand' : Parse Expression}
    (hoperand : ∀ bound, Abreast false Anyhow bound (fun _ => 1) operand operand')
    (hquiet : ∀ rounds left, Quiet (Rules.chain level operand rounds left))
    (hquiet' : ∀ rounds left, Quiet (Rules.chain level operand' rounds left))
    (hlevel : level.lookup .closeParen = none) (rounds rounds' : Nat) (hrounds : bound ≤ rounds)
    (hrounds' : bound ≤ rounds') (left : Expression) :
    Abreast false Anyhow bound (fun _ => 0) (Rules.chain level operand rounds left)
      (Rules.chain level operand' rounds' left) := by
  refine Abreast.loop hquiet hquiet' (fun bound rounds rounds' ih left => ?_) bound rounds rounds' hrounds hrounds' left
  refine .peek (quiet_pure _) ?_ fun token => ?_
  · have hnone : joinerOf? level (some (.mark .closeParen)) = none := hlevel
    simp only [hnone]
    exact .pure _
  · cases joinerOf? level (some token) with
    | none => exact .pure _
    | some join =>
      exact .advance_next (.descend (.bind (hoperand _).nothing fun _ => ih _ (by omega) _))

theorem operators {levels : List (List Joiner)}
    (hlevels : ∀ level ∈ levels, ∀ mark, (level.lookup mark).isSome → (Token.mark mark).openBehind 0 = some 0) :
    Abreast false Anyhow bound (fun _ => 1) (rules.operators levels) (rules'.operators levels) := by
  induction levels generalizing bound with
  | nil => exact h.exponent _
  | cons level tighter ih =>
    obtain ⟨hlevel, htighter⟩ := List.forall_mem_cons.1 hlevels
    have hclose : level.lookup .closeParen = none := by
      cases hlookup : level.lookup .closeParen with
      | none => rfl
      | some join => cases hlevel .closeParen (by rw [hlookup]; rfl)
    have hquiet := fun rounds left => (AllBalanced.chain (h.orderly.balanced.operators htighter) hlevel rounds left).quiet
    have hquiet' := fun rounds left => (AllBalanced.chain (h.orderly'.balanced.operators htighter) hlevel rounds left).quiet
    exact .bind (ih _ htighter) fun left => .rounds fun bound rounds rounds' hrounds hrounds' =>
      chain bound (fun bound => ih bound htighter) hquiet hquiet' hclose rounds rounds' hrounds hrounds' left

theorem conditional : Abreast false Anyhow bound (fun _ => 1) rules.conditional rules'.conditional :=
  .bind (h.operators _ AllBalanced.openBehind_operatorLevels) fun _ => .eat (by decide)
    (.bind (h.assignment _).nothing fun _ => .bind (Abreast.expect _).nothing fun _ =>
      .bind (h.assignment _).nothing fun _ => .pure _)
    (.pure _)

theorem arrowBody : Abreast false Anyhow bound (fun _ => 0) rules.arrowBody rules'.arrowBody :=
  .eat (by decide) (.bind (h.block _).nothing fun _ => .pure _)
    (.bind (h.assignment _).nothing fun _ => .pure _)

/-- Arrow functions take a token, if there is one. -/
theorem arrowFunction? : Abreast false Anyhow bound (fun found => if found.isSome then 1 else 0)
    rules.arrowFunction? rules'.arrowFunction? where
  quiet := h.orderly.balanced.arrowFunction?.quiet
  quiet' := h.orderly'.balanced.arrowFunction?.quiet
  run hfront _ hlength depth depth' := by
    cases hfront with
    | closing hplace =>
      -- neither end begins an arrow function
      have hclosed := Closed.cons hplace []
      rw [Closed.nil.beginsPlainly.run_arrowFunction rfl,
        hclosed.beginsPlainly.run_arrowFunction hclosed.startsArrowFunction_eq]
      exact .same (Nat.le_refl _) (.closing hplace)
    | @cons place place' rest rest' hplace hrest =>
      -- what is left to try behind a name without an arrow, and at every other token
      have hlist (starts : List PlacedToken → Prop) :
          Abreast false starts bound (fun found => if found.isSome then 1 else 0)
            (do if startsArrowFunction (← get).tokens then
                  advance
                  let parameters ← parameterList
                  expect (.mark .arrow)
                  return some (Expression.function parameters (← rules.arrowBody))
                else return none)
            (do if startsArrowFunction (← get).tokens then
                  advance
                  let parameters ← parameterList
                  expect (.mark .arrow)
                  return some (Expression.function parameters (← rules'.arrowBody))
                else return none) := by
        refine .arrow (.found ?_) (.pure_of_eq rfl)
        exact .advance_next (.bind (abreast_parameterList _) fun _ =>
          .bind (Abreast.expect _).nothing fun _ => .bind (h.arrowBody _) fun _ => .pure _)
      unfold Rules.arrowFunction?
      rw [run_bind, run_peek, run_bind, run_peek]
      obtain ⟨token, start, stop⟩ := place
      obtain ⟨token', start', stop'⟩ := place'
      obtain rfl : token' = token := hplace
      have hfront : InFront (⟨token', start, stop⟩ :: rest) (⟨token', start', stop'⟩ :: rest') := .cons rfl hrest
      have hstarts : StartsWith (some token') (⟨token', start, stop⟩ :: rest) := rfl
      cases token' with
      | identifier name =>
        refine (Abreast.look (hlist Anyhow).quiet' (hlist _) fun second => ?_).run hfront hstarts
          hlength depth depth'
        rcases second with _ | _ | _ | _ | mark
        case mark =>
          cases mark with
          | arrow =>
            refine .found ?_
            exact .advance_first (.advance_next (.bind (h.arrowBody _) fun _ => .pure _))
          | _ => exact hlist _
        all_goals exact hlist _
      | _ =>
        exact (Abreast.look (hlist Anyhow).quiet' (hlist _) fun _ => hlist _).run hfront hstarts hlength depth depth'

theorem expression : Abreast false Anyhow bound (fun _ => 1) rules.expression rules'.expression := by
  refine .bind (h.arrowFunction? _) fun found => ?_
  cases found with
  | some function => exact .pure _
  | none =>
    refine .bind (h.conditional _) fun target => ?_
    refine .peek (quiet_pure _)
      (.pure _) fun token => ?_
    cases assignmentOperator? (some token) with
    | none => exact .pure _
    | some operator =>
      cases target with
      | name name => exact .advance_next (.bind (h.assignment _).nothing fun _ => .pure _)
      | _ => exact .complain _ _

theorem bindings (rounds rounds' : Nat) (hrounds : bound ≤ rounds) (hrounds' : bound ≤ rounds') :
    Abreast false Anyhow bound (fun _ => 0) (rules.bindings rounds) (rules'.bindings rounds') := by
  refine Abreast.loop (F := fun rounds _ => rules.bindings rounds) (G := fun rounds _ => rules'.bindings rounds)
    (fun rounds _ => (h.orderly.balanced.bindings rounds).quiet) (fun rounds _ => (h.orderly'.balanced.bindings rounds).quiet)
    (fun bound rounds rounds' ih _ => ?_) bound rounds rounds' hrounds hrounds' ()
  have hmore (name : String) (value : Option Expression) (bound' : Nat) (hbound : bound' ≤ bound - 1) :
      Abreast false Anyhow bound' (fun _ => 0)
        (do
          if ← eat (.mark .comma) then return (name, value) :: (← rules.bindings rounds)
          else return [(name, value)])
        (do
          if ← eat (.mark .comma) then return (name, value) :: (← rules'.bindings rounds')
          else return [(name, value)]) :=
    .eat (by decide) (.bind (ih _ (by omega) ()) fun _ => .pure _) (.pure _)
  exact .bind .identifier fun name => .eat (by decide)
    (.bind (.bind (h.assignment _).nothing fun _ => .pure _) fun value => hmore name value _ (by omega))
    (.bind (.pure _) fun value => hmore name value _ (by omega))

theorem declaration (token : Token) :
    Abreast false (StartsWith (some token)) bound (fun _ => 1) rules.declaration rules'.declaration :=
  .advance_next (.rounds fun bound rounds rounds' hrounds hrounds' =>
    .bind (h.bindings bound rounds rounds' hrounds hrounds') fun _ => .pure _)

theorem testInParentheses (token : Token) :
    Abreast false (StartsWith (some token)) bound (fun _ => 1) rules.testInParentheses
      rules'.testInParentheses :=
  .advance_next (.bind (Abreast.expect _).nothing fun _ => .bind (h.assignment _).nothing fun _ =>
    .bind (Abreast.expect _).nothing fun _ => .pure _)

/-- The rule that is loose: at the end of the tokens nothing is returned, in front of the parenthesis a value is
missing. -/
theorem returned : Abreast true (StartsWith none) bound (fun _ => 0)
    (pure (Statement.result none)) (do return Statement.result (some (← rules'.assignment))) where
  quiet := quiet_pure _
  quiet' := Fails.ended ((h.orderly'.assignment .nil).bind _)
  run hfront hstarts _ depth depth' := by
    cases hfront with
    | closing hplace =>
      refine .ended (fun _ _ hrun => ?_) (Fails.ended ((h.orderly'.assignment (.cons hplace [])).bind _) depth')
      cases hrun
      exact ⟨rfl, rfl⟩
    | cons => cases hstarts

/-- A statement takes a token, but for the empty one, which leaves its semicolon. -/
theorem bareStatement {token : Token} (htoken : token ≠ .mark .semicolon) :
    Abreast true (StartsWith (some token)) bound (fun _ => 1) rules.bareStatement rules'.bareStatement := by
  have hexpression : Abreast true Anyhow bound (fun _ => 1)
      (do return Statement.expression (← rules.assignment)) (do return Statement.expression (← rules'.assignment)) :=
    .bind (h.assignment _) fun _ => .pure _
  refine .peek_next hexpression.quiet hexpression.quiet' ?_
  cases token with
  | keyword word =>
    cases word with
    | letWord | varWord | constWord => exact (h.declaration _ _).loosely
    | ifWord =>
      refine .bind (h.testInParentheses _ _) fun test => .bind_loose (h.statement _).nothing fun first => ?_
      exact .eat (by decide) (.bind_loose (h.statement _).nothing fun _ => .pure _) (.pure _)
    | whileWord =>
      exact .bind (h.testInParentheses _ _) fun _ => .bind_loose (h.statement _).nothing fun _ => .pure _
    | returnWord =>
      -- only the two marks that end a statement leave the value out
      refine .advance_next (.peek (h.returned 0).quiet (h.returned _) fun token => ?_)
      have hvalue : Abreast true (StartsWith (some token)) (bound - 1) (fun _ => 0)
          (do return Statement.result (some (← rules.assignment)))
          (do return Statement.result (some (← rules'.assignment))) :=
        .bind (h.assignment _).starting fun _ => .pure _
      rcases token with _ | _ | _ | _ | mark
      case mark =>
        cases mark with
        | semicolon | closeBrace => exact .pure _
        | _ => exact hvalue
      all_goals exact hvalue
    | functionWord =>
      refine .look hexpression.quiet' hexpression.starting fun second => ?_
      cases second with
      | identifier name =>
        exact .advance_first (.advance_next (.bind (h.functionRest _).nothing fun _ => .pure _))
      | _ => exact hexpression.starting
    | _ => exact hexpression.starting
  | mark mark =>
    cases mark with
    | openBrace => exact .advance_next (.bind (h.block _).nothing fun _ => .pure _)
    | semicolon => exact absurd rfl htoken
    | _ => exact hexpression.starting
  | _ => exact hexpression.starting

theorem terminated : Abreast true Anyhow bound (fun _ => 1) rules.terminated rules'.terminated where
  quiet := h.orderly.balanced.terminated.quiet
  quiet' := h.orderly'.balanced.terminated.quiet
  run hfront _ hlength depth depth' := by
    cases hfront with
    | closing hplace =>
      -- Neither finds a statement in nothing, or in front of the parenthesis.
      have hclosed := Closed.cons hplace []
      have hfails : Fails rules.terminated [] := (Closed.nil.bareStatement (h.orderly.assignment .nil)).bind _
      have hfails' : Fails rules'.terminated _ := (hclosed.bareStatement (h.orderly'.assignment hclosed)).bind _
      exact .ended (hfails.ended depth) (hfails'.ended depth')
    | @cons place place' rest rest' hplace hrest =>
      obtain ⟨token, start, stop⟩ := place
      obtain ⟨token', start', stop'⟩ := place'
      obtain rfl : token' = token := hplace
      by_cases htoken : token' = .mark .semicolon
      · -- the empty statement leaves its semicolon, which is taken behind it
        subst htoken
        exact .same (Nat.le_refl _) hrest
      · have hfront : InFront (⟨token', start, stop⟩ :: rest) (⟨token', start', stop'⟩ :: rest') := .cons rfl hrest
        have hstarts : StartsWith (some token') (⟨token', start, stop⟩ :: rest) := rfl
        refine Abreast.run ?_ hfront hstarts hlength depth depth'
        exact .bind_loose (h.bareStatement bound htoken) fun _ =>
          .bind (.eat (f := fun _ => Pure.pure ()) (g := fun _ => Pure.pure ()) (by decide) (.pure _)
            (.pure _)) fun _ => .pure _

end Rules.GoAbreast

/-- The rules at any two levels go abreast.  At the last one the nesting is too deep. -/
theorem goAbreast_rulesAt (levels levels' : Nat) : (rulesAt levels).GoAbreast (rulesAt levels') := by
  have horderly := orderly_rulesAt levels
  have horderly' := orderly_rulesAt levels'
  induction levels generalizing levels' with
  | zero =>
    exact ⟨fun _ => .tooDeep horderly'.balanced.statement.quiet, fun _ => .tooDeep horderly'.balanced.assignment.quiet,
      fun _ => .tooDeep horderly'.balanced.power.quiet, fun _ => .tooDeep horderly'.balanced.prefixed.quiet,
      horderly, horderly'⟩
  | succ levels ih =>
    cases levels' with
    | zero =>
      exact ⟨fun _ => .tooDeep' horderly.balanced.statement.quiet, fun _ => .tooDeep' horderly.balanced.assignment.quiet,
        fun _ => .tooDeep' horderly.balanced.power.quiet, fun _ => .tooDeep' horderly.balanced.prefixed.quiet,
        horderly, horderly'⟩
    | succ levels' =>
      have h := ih levels' (orderly_rulesAt levels) (orderly_rulesAt levels')
      exact ⟨fun bound => .nested (h.terminated bound), fun bound => .nested (h.expression bound),
        fun bound => .nested (h.exponent bound), fun bound => .nested (h.unary bound),
        horderly, horderly'⟩

end SequenceNotation.Script
