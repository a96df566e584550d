import SequenceNotation.Proofs.Script.Reader

/-!
# Parentheses and readers

Every rule takes its parentheses in pairs: what is read as an expression, a statement or a block has as
many closing parentheses as opening ones, and none closes that was not opened before.  Rules that begin
behind an opening parenthesis take the one that closes it.
-/

namespace SequenceNotation.Script

open Parse

/-! ### Open parentheses -/

/-- How many parentheses are open behind a token, given how many are in front of it; none if it closes one
that is not open. -/
def Token.openBehind (opened : Nat) : Token → Option Nat
  | .mark .openParen => some (opened + 1)
  | .mark .closeParen => if opened = 0 then none else some (opened - 1)
  | _ => some opened

/-- How many parentheses are open behind all tokens. -/
def openBehind (opened : Nat) (tokens : List Token) : Option Nat :=
  tokens.foldlM Token.openBehind opened

/-- Whether the parentheses match each other. -/
def Matched (tokens : List Token) : Prop :=
  openBehind 0 tokens = some 0

instance (tokens : List Token) : Decidable (Matched tokens) :=
  inferInstanceAs (Decidable (_ = _))

theorem openBehind_cons (opened : Nat) (token : Token) (tokens : List Token) :
    openBehind opened (token :: tokens) = (token.openBehind opened).bind (openBehind · tokens) :=
  rfl

theorem openBehind_append (opened : Nat) (tokens more : List Token) :
    openBehind opened (tokens ++ more) = (openBehind opened tokens).bind (openBehind · more) :=
  List.foldlM_append

/-- Parentheses that are open around the tokens stay open behind them. -/
theorem openBehind_add {opened left : Nat} {tokens : List Token} (h : openBehind opened tokens = some left)
    (around : Nat) : openBehind (opened + around) tokens = some (left + around) := by
  induction tokens generalizing opened with
  | nil =>
    cases h
    rfl
  | cons token tokens ih =>
    rw [openBehind_cons] at h ⊢
    obtain ⟨next, hnext, hrest⟩ := Option.bind_eq_some_iff.1 h
    have hstep : token.openBehind (opened + around) = some (next + around) := by
      unfold Token.openBehind at hnext ⊢
      split at hnext
      · cases hnext
        exact congrArg some (Nat.add_right_comm ..)
      · -- a parenthesis that closes one of these closes none of those around
        split at hnext
        · cases hnext
        · cases hnext
          rw [if_neg (by omega), Nat.sub_add_comm (by omega)]
      · cases hnext
        rfl
    rw [hstep]
    exact ih hrest

/-- Between matched tokens none closes a parenthesis from outside. -/
theorem Matched.openBehind_eq {tokens : List Token} (h : Matched tokens) (opened : Nat) :
    openBehind opened tokens = some opened := by
  have hadd := openBehind_add h opened
  rwa [Nat.zero_add] at hadd

/-! ### What readers open and close -/

variable {α β : Type}

/-- A reader that begins with the next token `next` and inside `opened` parentheses has `left` of them open
when it is done. -/
def BalancedAt (next : Option Token) (opened left : Nat) (x : Parse α) : Prop :=
  ∀ tokens, (bare tokens).head? = next →
    Yields x tokens fun taken _ => openBehind opened taken = some left

/-- A reader that begins inside `opened` parentheses has `left` of them open when it is done. -/
def Balanced (opened left : Nat) (x : Parse α) : Prop :=
  ∀ tokens, Yields x tokens fun taken _ => openBehind opened taken = some left

section

variable {next : Option Token} {opened middle left : Nat} {x : Parse α} {f : α → Parse β}

theorem Balanced.at (h : Balanced opened left x) : BalancedAt next opened left x :=
  fun tokens _ => h tokens

theorem BalancedAt.bind (h : BalancedAt next opened middle x) (hf : ∀ a, Balanced middle left (f a)) :
    BalancedAt next opened left (x >>= f) := by
  refine fun tokens hnext => .bind (h tokens hnext) fun taken a rest _ htaken => ?_
  refine (hf a rest).mono fun more _ hmore => ?_
  rw [openBehind_append, htaken]
  exact hmore

theorem BalancedAt.advance {token : Token} {f : Unit → Parse β} (htoken : token.openBehind opened = some middle)
    (hf : Balanced middle left (f ())) :
    BalancedAt (some token) opened left (advance >>= f) := by
  refine fun tokens hnext => .advance hnext fun place rest _ => (hf rest).mono fun more _ hmore => ?_
  rw [openBehind_cons, htoken]
  exact hmore

namespace Balanced

theorem pure (a : α) : Balanced opened opened (pure a) :=
  fun _ => .pure rfl

theorem complain (complaint : Complaint) : Balanced opened left (complain complaint : Parse α) :=
  fun _ => .complain _

theorem bind (h : Balanced opened middle x) (hf : ∀ a, Balanced middle left (f a)) :
    Balanced opened left (x >>= f) :=
  fun tokens => BalancedAt.bind h.at hf tokens rfl

theorem peek {f : Option Token → Parse β} (hf : ∀ next, BalancedAt next opened left (f next)) :
    Balanced opened left (peek? 0 >>= f) :=
  fun tokens => .peek (hf _ tokens rfl)

theorem eat {token : Token} {f : Bool → Parse β} (htoken : token.openBehind opened = some middle)
    (hfound : Balanced middle left (f true)) (hother : Balanced opened left (f false)) :
    Balanced opened left (eat token >>= f) := by
  refine fun tokens => .bind (.eat token) fun taken found rest _ h => ?_
  rcases h with ⟨rfl, htaken⟩ | ⟨rfl, htaken⟩
  · refine (hfound rest).mono fun more _ hmore => ?_
    rw [htaken, List.singleton_append, openBehind_cons, htoken]
    exact hmore
  · refine (hother rest).mono fun more _ hmore => ?_
    rwa [htaken]

theorem expect {token : Token} (htoken : token.openBehind opened = some left) :
    Balanced opened left (expect token) :=
  .eat htoken (.pure ()) (.complain _)

theorem identifier : Balanced opened opened identifier := by
  refine .peek fun next => ?_
  split
  · exact .advance rfl (.pure _)
  · exact (Balanced.complain _).at

theorem of_nothing (h : ∀ tokens, Yields x tokens fun taken _ => taken = []) : Balanced opened opened x :=
  fun tokens => (h tokens).mono fun _ _ htaken => htaken ▸ rfl

theorem descend : Balanced opened opened descend :=
  of_nothing fun _ => .descend

theorem rounds : Balanced opened opened rounds :=
  of_nothing fun _ => .rounds

theorem nested (h : Balanced opened left x) : Balanced opened left (nested x) :=
  fun tokens => .nested (h tokens)

/-- What is matched is matched inside parentheses as well. -/
theorem inside (h : Balanced 0 0 x) (opened : Nat) : Balanced opened opened x :=
  fun tokens => (h tokens).mono fun _ _ htaken => Matched.openBehind_eq htaken opened

end Balanced

end

/-! ### Every rule takes matched parentheses -/

theorem balanced_parameters (rounds : Nat) : Balanced 1 0 (parameters rounds) := by
  induction rounds with
  | zero => exact .complain _
  | succ rounds ih =>
    exact .bind .identifier fun _ => .eat rfl (.pure _) (.bind (.expect rfl) fun _ => .bind ih fun _ => .pure _)

theorem balanced_parameterList : Balanced 1 0 parameterList :=
  .eat rfl (.pure _) (.bind .rounds balanced_parameters)

/-- The rules that others refer back to take matched parentheses. -/
structure Rules.AllBalanced (rules : Rules) : Prop where
  statement : Balanced 0 0 rules.statement
  assignment : Balanced 0 0 rules.assignment
  power : Balanced 0 0 rules.power
  prefixed : Balanced 0 0 rules.prefixed

namespace Rules.AllBalanced

variable {rules : Rules} (h : rules.AllBalanced)
include h

theorem blockRest (rounds : Nat) : Balanced 0 0 (rules.blockRest rounds) := by
  induction rounds with
  | zero => exact .complain _
  | succ rounds ih =>
    refine .peek fun next => ?_
    split
    · exact .advance rfl (.pure _)
    · exact (Balanced.complain _).at
    · exact (Balanced.bind h.statement fun _ => .bind ih fun _ => .pure _).at

theorem block : Balanced 0 0 rules.block :=
  .bind .rounds h.blockRest

theorem functionRest : Balanced 0 0 rules.functionRest :=
  .bind (.expect rfl) fun _ => .bind balanced_parameterList fun _ =>
    .bind (.expect rfl) fun _ => .bind h.block fun _ => .pure _

theorem argumentsRest (rounds : Nat) : Balanced 1 0 (rules.argumentsRest rounds) := by
  induction rounds with
  | zero => exact .complain _
  | succ rounds ih =>
    exact .bind (h.assignment.inside 1) fun _ =>
      .eat rfl (.pure _) (.bind (.expect rfl) fun _ => .bind ih fun _ => .pure _)

theorem argumentList : Balanced 1 0 rules.argumentList :=
  .eat rfl (.pure _) (.bind .rounds h.argumentsRest)

theorem primary : Balanced 0 0 rules.primary := by
  refine .peek fun next => ?_
  split
  case h_8 =>
    -- an expression in parentheses
    exact .advance rfl (.bind (h.assignment.inside 1) fun _ => .bind (.expect rfl) fun _ => .pure _)
  case h_9 =>
    refine .advance rfl (.peek fun next => ?_)
    split
    · exact .advance rfl h.functionRest
    · exact h.functionRest.at
  case h_10 => exact (Balanced.complain _).at
  all_goals exact .advance rfl (.pure _)

omit h in
theorem countedBehind (expression : Expression) (upwards : Bool) {mark : Mark}
    (hmark : (Token.mark mark).openBehind 0 = some 0) :
    BalancedAt (some (.mark mark)) 0 0 (Rules.countedBehind expression upwards) := by
  refine fun tokens hnext => .bind_nothing .descend fun _ => ?_
  split
  · refine BalancedAt.advance hmark ?_ tokens hnext
    exact .pure _
  · exact .complain _

theorem suffixes (rounds : Nat) (expression : Expression) : Balanced 0 0 (rules.suffixes rounds expression) := by
  induction rounds generalizing expression with
  | zero => exact .pure _
  | succ rounds ih =>
    refine .peek fun next => ?_
    split
    · refine fun tokens hnext => .bind_nothing .descend fun _ => ?_
      exact BalancedAt.advance rfl (.bind h.argumentList fun _ => ih _) tokens hnext
    · refine fun tokens hnext => .bind_nothing .descend fun _ => ?_
      exact BalancedAt.advance rfl (.bind .identifier fun _ => ih _) tokens hnext
    · exact .bind (countedBehind _ _ rfl) fun _ => ih _
    · exact .bind (countedBehind _ _ rfl) fun _ => ih _
    · exact (Balanced.pure _).at

theorem operatorFirst (operator : UnaryOperator) {token : Token} (htoken : token.openBehind 0 = some 0) :
    BalancedAt (some token) 0 0 (rules.operatorFirst operator) :=
  .advance htoken (.bind h.prefixed fun _ => .pure _)

theorem unary : Balanced 0 0 rules.unary := by
  refine .peek fun next => ?_
  split
  · exact h.operatorFirst _ rfl
  · exact h.operatorFirst _ rfl
  · exact h.operatorFirst _ rfl
  · exact h.operatorFirst _ rfl
  · exact .advance rfl (.bind .identifier fun _ => .pure _)
  · exact .advance rfl (.bind .identifier fun _ => .pure _)
  · exact (Balanced.bind h.primary fun _ => .bind .rounds fun _ => h.suffixes _ _).at

theorem exponent : Balanced 0 0 rules.exponent :=
  .bind h.unary fun _ => .eat rfl (.bind h.power fun _ => .pure _) (.pure _)

omit h in
theorem chain {level : List Joiner} {operand : Parse Expression} (hoperand : Balanced 0 0 operand)
    (hlevel : ∀ mark, (level.lookup mark).isSome → (Token.mark mark).openBehind 0 = some 0) (rounds : Nat)
    (left : Expression) : Balanced 0 0 (Rules.chain level operand rounds left) := by
  induction rounds generalizing left with
  | zero => exact .pure _
  | succ rounds ih =>
    refine .peek fun next => ?_
    split
    · exact (Balanced.pure _).at
    · rename_i join hjoin
      unfold joinerOf? at hjoin
      split at hjoin
      · rename_i mark
        exact .advance (hlevel mark (by rw [hjoin]; rfl))
          (.bind .descend fun _ => .bind hoperand fun _ => ih _)
      · cases hjoin

theorem operators {levels : List (List Joiner)}
    (hlevels : ∀ level ∈ levels, ∀ mark, (level.lookup mark).isSome → (Token.mark mark).openBehind 0 = some 0) :
    Balanced 0 0 (rules.operators levels) := by
  induction levels with
  | nil => exact h.exponent
  | cons level tighter ih =>
    obtain ⟨hlevel, htighter⟩ := List.forall_mem_cons.1 hlevels
    exact .bind (ih htighter) fun _ => .bind .rounds fun _ => chain (ih htighter) hlevel _ _

omit h in
/-- No operator is a parenthesis. -/
theorem openBehind_operatorLevels : ∀ level ∈ operatorLevels, ∀ mark, (level.lookup mark).isSome →
    (Token.mark mark).openBehind 0 = some 0 := by
  intro level hlevel mark hmark
  cases mark with
  | openParen | closeParen =>
    simp only [operatorLevels, List.mem_cons, List.not_mem_nil, or_false] at hlevel
    rcases hlevel with rfl | rfl | rfl | rfl | rfl | rfl | rfl <;> cases hmark
  | _ => rfl

theorem conditional : Balanced 0 0 rules.conditional :=
  .bind (h.operators openBehind_operatorLevels) fun _ =>
    .eat rfl (.bind h.assignment fun _ => .bind (.expect rfl) fun _ => .bind h.assignment fun _ => .pure _)
      (.pure _)

theorem arrowBody : Balanced 0 0 rules.arrowBody :=
  .eat rfl (.bind h.block fun _ => .pure _) (.bind h.assignment fun _ => .pure _)

theorem arrowFunction? : Balanced 0 0 rules.arrowFunction? := by
  refine fun tokens => .peek (.look 1 ?_)
  split
  · -- a name and an arrow
    rename_i name hfirst hsecond
    refine .advance hfirst fun place rest htokens => ?_
    have hnext : (bare rest).head? = some (.mark .arrow) := head?_bare_of_look htokens hsecond
    refine .advance hnext fun _ rest' _ => ?_
    exact (Balanced.bind h.arrowBody fun _ => .pure _) rest'
  · refine .get fun depth => ?_
    dsimp only
    split
    · rename_i hstarts
      have hfirst : (bare tokens).head? = some (.mark .openParen) := head?_of_startsArrowFunction hstarts
      refine (?_ : BalancedAt _ 0 0 _) tokens hfirst
      exact .advance rfl (.bind balanced_parameterList fun _ => .bind (.expect rfl) fun _ =>
        .bind h.arrowBody fun _ => .pure _)
    · exact .pure rfl

theorem expression : Balanced 0 0 rules.expression := by
  refine .bind h.arrowFunction? fun found => ?_
  split
  · exact .pure _
  · refine .bind h.conditional fun target => .peek fun next => ?_
    split
    · exact (Balanced.pure _).at
    · rename_i operator hoperator
      split
      · unfold assignmentOperator? at hoperator
        split at hoperator
        case h_6 => cases hoperator
        all_goals exact .advance rfl (.bind h.assignment fun _ => .pure _)
      · exact (Balanced.complain _).at

theorem bindings (rounds : Nat) : Balanced 0 0 (rules.bindings rounds) := by
  induction rounds with
  | zero => exact .complain _
  | succ rounds ih =>
    have hmore (name : String) (value : Option Expression) :
        Balanced 0 0 (do
          if ← Parse.eat (.mark .comma) then return (name, value) :: (← rules.bindings rounds)
          else return [(name, value)]) :=
      .eat rfl (.bind ih fun _ => .pure _) (.pure _)
    exact .bind .identifier fun name =>
      .eat rfl (.bind (.bind h.assignment fun _ => .pure _) (hmore name)) (.bind (.pure _) (hmore name))

theorem declaration {token : Token} (htoken : token.openBehind 0 = some 0) :
    BalancedAt (some token) 0 0 rules.declaration :=
  .advance htoken (.bind .rounds fun _ => .bind (h.bindings _) fun _ => .pure _)

theorem testInParentheses {token : Token} (htoken : token.openBehind 0 = some 0) :
    BalancedAt (some token) 0 0 rules.testInParentheses :=
  .advance htoken (.bind (.expect rfl) fun _ => .bind (h.assignment.inside 1) fun _ =>
    .bind (.expect rfl) fun _ => .pure _)

theorem bareStatement : Balanced 0 0 rules.bareStatement := by
  have hexpression : Balanced 0 0 (do return Statement.expression (← rules.assignment)) :=
    .bind h.assignment fun _ => .pure _
  refine .peek fun next => ?_
  split
  · exact .advance rfl (.bind h.block fun _ => .pure _)
  · exact h.declaration rfl
  · exact h.declaration rfl
  · exact h.declaration rfl
  · -- a conditional statement
    exact .bind (h.testInParentheses rfl) fun _ => .bind h.statement fun _ =>
      .eat rfl (.bind h.statement fun _ => .pure _) (.pure _)
  · -- a loop
    exact .bind (h.testInParentheses rfl) fun _ => .bind h.statement fun _ => .pure _
  · -- a result, with or without an expression
    refine .advance rfl (.peek fun next => ?_)
    split
    · exact (Balanced.pure _).at
    · exact (Balanced.pure _).at
    · exact (Balanced.pure _).at
    · exact (Balanced.bind h.assignment fun _ => .pure _).at
  · exact (Balanced.pure _).at
  · -- a function is declared if a name follows, and is an expression otherwise
    refine fun tokens hfirst => .look 1 ?_
    split
    · rename_i name hsecond
      refine .advance hfirst fun place rest htokens => ?_
      have hnext : (bare rest).head? = some (.identifier name) := head?_bare_of_look htokens hsecond
      refine .advance hnext fun _ rest' _ => ?_
      exact (Balanced.bind h.functionRest fun _ => .pure _) rest'
    · exact hexpression tokens
  · exact hexpression.at

theorem terminated : Balanced 0 0 rules.terminated :=
  .bind h.bareStatement fun _ =>
    .bind (.eat (f := fun _ => Pure.pure ()) rfl (.pure _) (.pure _)) fun _ => .pure _

end Rules.AllBalanced

theorem balanced_rulesAt (levels : Nat) : (rulesAt levels).AllBalanced := by
  induction levels with
  | zero => exact ⟨.complain _, .complain _, .complain _, .complain _⟩
  | succ levels ih => exact ⟨.nested ih.terminated, .nested ih.expression, .nested ih.exponent, .nested ih.unary⟩

end SequenceNotation.Script
