import Mathlib.Logic.Function.Iterate
import SequenceNotation.Proofs.Script.Reader

/-!
# Readers go on

A reader ends in front of tokens that were ahead of it, or complains at one of them or behind the last one, and it takes
no token where there is none.  Every rule that the others refer back to takes at least one token.  So each round of a
loop leaves fewer tokens than it found, and a loop ends on its own, in no more rounds than there are tokens.
-/

namespace SequenceNotation.Script

open Parse

variable {α β : Type}

/-! ### How readers end -/

/-- How a reader ends that is sure to take a token, or is not.  If it succeeds, the tokens left are the last ones that
were ahead, and the nesting is no less deep.  If it fails, it is at such tokens, and never for a missing one. -/
inductive Ends (takes : Bool) (s : ParseState) : Except SyntaxFault (α × ParseState) → Prop
  | ok {a t} (htokens : t.tokens <:+ s.tokens) (htakes : takes = true → t.tokens.length < s.tokens.length)
      (hdepth : s.depth ≤ t.depth) : Ends takes s (.ok (a, t))
  | misplaced {complaint rest} (hcomplaint : complaint ≠ .pastEnd) (hrest : rest <:+ s.tokens) :
      Ends takes s (.error (.misplaced complaint rest.head?))

theorem Ends.of_tail {takes : Bool} {depth : Nat} {place : PlacedToken} {rest : List PlacedToken}
    {outcome : Except SyntaxFault (α × ParseState)} (h : Ends false ⟨depth, rest⟩ outcome) :
    Ends takes ⟨depth, place :: rest⟩ outcome := by
  have hsuffix := List.suffix_cons place rest
  cases h with
  | misplaced hcomplaint hrest => exact .misplaced hcomplaint (hrest.trans hsuffix)
  | ok htokens _ hdepth => exact .ok (htokens.trans hsuffix) (fun _ => Nat.lt_succ_of_le htokens.length_le) hdepth

/-- The reader goes on from the tokens, at any depth. -/
def Moves (takes : Bool) (x : Parse α) (tokens : List PlacedToken) : Prop :=
  ∀ depth, Ends takes ⟨depth, tokens⟩ (x.run ⟨depth, tokens⟩)

namespace Moves

variable {takes : Bool} {x : Parse α} {tokens : List PlacedToken} {f : α → Parse β}

theorem anyway (h : Moves takes x tokens) : Moves false x tokens := by
  intro depth
  have hends := h depth
  generalize x.run ⟨depth, tokens⟩ = outcome at hends ⊢
  cases hends with
  | ok htokens _ hdepth => exact .ok htokens nofun hdepth
  | misplaced hcomplaint hrest => exact .misplaced hcomplaint hrest

/-- A sequence takes a token if one of its parts does. -/
theorem bind_or {first second : Bool} (h : Moves first x tokens) (hf : ∀ a rest, Moves second (f a) rest) :
    Moves (first || second) (x >>= f) tokens := by
  intro depth
  have hends := h depth
  rw [run_bind]
  generalize x.run ⟨depth, tokens⟩ = outcome at hends ⊢
  cases hends with
  | misplaced hcomplaint hrest => exact .misplaced hcomplaint hrest
  | @ok a t htokens htakes hdepth =>
    have hends := hf a t.tokens t.depth
    dsimp only
    generalize (f a).run t = outcome at hends ⊢
    cases hends with
    | misplaced hcomplaint hrest => exact .misplaced hcomplaint (hrest.trans htokens)
    | ok htokens' htakes' hdepth' =>
      have hle := htokens.length_le
      have hle' := htokens'.length_le
      refine .ok (htokens'.trans htokens) (fun htrue => ?_) (Nat.le_trans hdepth hdepth')
      rcases (Bool.or_eq_true_iff).1 htrue with hfirst | hsecond
      · exact Nat.lt_of_le_of_lt hle' (htakes hfirst)
      · exact Nat.lt_of_lt_of_le (htakes' hsecond) hle

theorem bind (h : Moves false x tokens) (hf : ∀ a rest, Moves takes (f a) rest) : Moves takes (x >>= f) tokens :=
  bind_or h hf

theorem bind_taken (h : Moves takes x tokens) (hf : ∀ a rest, Moves false (f a) rest) :
    Moves takes (x >>= f) tokens := by
  have hends := bind_or h hf
  rwa [Bool.or_false] at hends

theorem pure (a : α) : Moves false (pure a) tokens :=
  fun _ => .ok (List.suffix_refl _) nofun (Nat.le_refl _)

/-- What has been read is handed on. -/
theorem then_return (h : Moves takes x tokens) (f : α → β) : Moves false (do return f (← x)) tokens :=
  h.anyway.bind fun _ _ => pure _

theorem complain {complaint : Complaint} (h : complaint ≠ .pastEnd) :
    Moves takes (complain complaint : Parse α) tokens :=
  fun _ => .misplaced h (List.suffix_refl _)

theorem look (n : Nat) {f : Option Token → Parse β} (h : ∀ next, (tokens[n]?).map (·.token) = next →
    Moves takes (f next) tokens) : Moves takes (peek? n >>= f) tokens := by
  intro depth
  rw [run_bind, run_peek?]
  exact h _ rfl depth

theorem peek {f : Option Token → Parse β} (h : ∀ next, (bare tokens).head? = next → Moves takes (f next) tokens) :
    Moves takes (peek? 0 >>= f) tokens := by
  intro depth
  rw [run_bind, run_peek]
  exact h _ rfl depth

theorem get {f : ParseState → Parse β} (h : ∀ depth, Moves takes (f ⟨depth, tokens⟩) tokens) :
    Moves takes (get >>= f) tokens :=
  fun depth => h depth depth

/-- The token that is taken has to be known to be there. -/
theorem advance {f : Unit → Parse β} {token : Token} (hnext : (bare tokens).head? = some token)
    (h : ∀ place rest, tokens = place :: rest → Moves false (f ()) rest) : Moves takes (advance >>= f) tokens := by
  cases tokens with
  | nil => cases hnext
  | cons place rest =>
    intro depth
    rw [run_bind, run_advance]
    exact (h place rest rfl depth).of_tail

theorem eat (token : Token) {f : Bool → Parse β} (hfound : ∀ rest, Moves false (f true) rest)
    (hother : Moves takes (f false) tokens) : Moves takes (eat token >>= f) tokens := by
  intro depth
  rw [run_bind, run_eat]
  by_cases hnext : (bare tokens).head? = some token
  · rw [if_pos hnext]
    cases tokens with
    | nil => cases hnext
    | cons place rest => exact (hfound rest depth).of_tail
  · rw [if_neg hnext]
    exact hother depth

theorem expect (token : Token) : Moves true (expect token) tokens :=
  eat token (fun _ => pure ()) (complain nofun)

theorem identifier : Moves true identifier tokens := by
  refine peek fun next hnext => ?_
  split
  · exact advance hnext fun _ _ _ => pure _
  · exact complain nofun

theorem descend {f : Unit → Parse β} (h : Moves takes (f ()) tokens) : Moves takes (descend >>= f) tokens := by
  intro depth
  rw [run_bind, run_descend]
  by_cases hdeep : maxNesting < depth + 1
  · rw [if_pos hdeep]
    exact .misplaced nofun (List.suffix_refl _)
  · rw [if_neg hdeep]
    have hends := h (depth + 1)
    dsimp only
    generalize (f ()).run ⟨depth + 1, tokens⟩ = outcome at hends ⊢
    cases hends with
    | misplaced hcomplaint hrest => exact .misplaced hcomplaint hrest
    | ok htokens htakes hdepth => exact .ok htokens htakes (Nat.le_of_succ_le hdepth)

theorem rounds : Moves false rounds tokens :=
  fun _ => .ok (List.suffix_refl _) nofun (Nat.le_refl _)

theorem nested (h : Moves takes x tokens) : Moves takes (nested x) tokens := by
  intro depth
  rw [run_nested]
  split
  · exact .misplaced nofun (List.suffix_refl _)
  · have hends := h (depth + 1)
    dsimp only
    generalize x.run ⟨depth + 1, tokens⟩ = outcome at hends ⊢
    cases hends with
    | misplaced hcomplaint hrest => exact .misplaced hcomplaint hrest
    | ok htokens htakes _ => exact .ok htokens htakes (Nat.le_refl _)

theorem parameters (rounds : Nat) (tokens : List PlacedToken) : Moves true (parameters rounds) tokens := by
  induction rounds generalizing tokens with
  | zero => exact complain nofun
  | succ rounds ih =>
    exact identifier.bind_taken fun _ _ => eat _ (fun _ => pure _)
      ((expect _).anyway.bind fun _ rest => (ih rest).then_return _)

theorem parameterList : Moves true parameterList tokens :=
  eat _ (fun _ => pure _) (rounds.bind parameters)

end Moves

/-! ### Every rule goes on -/

/-- The rules that others refer back to take a token. -/
structure Rules.AllMove (rules : Rules) : Prop where
  statement : ∀ tokens, Moves true rules.statement tokens
  assignment : ∀ tokens, Moves true rules.assignment tokens
  power : ∀ tokens, Moves true rules.power tokens
  prefixed : ∀ tokens, Moves true rules.prefixed tokens

namespace Rules.AllMove

variable {rules : Rules} (h : rules.AllMove) {tokens : List PlacedToken}
include h

theorem blockRest (rounds : Nat) (tokens : List PlacedToken) : Moves true (rules.blockRest rounds) tokens := by
  induction rounds generalizing tokens with
  | zero => exact .complain nofun
  | succ rounds ih =>
    refine .peek fun next hnext => ?_
    split
    · exact .advance hnext fun _ _ _ => .pure _
    · exact .complain nofun
    · exact (h.statement _).bind_taken fun _ rest => (ih rest).then_return _

theorem block : Moves true rules.block tokens :=
  .bind .rounds h.blockRest

theorem functionRest : Moves true rules.functionRest tokens :=
  (Moves.expect _).bind_taken fun _ _ => Moves.parameterList.anyway.bind fun _ _ =>
    (Moves.expect _).anyway.bind fun _ _ => h.block.then_return _

theorem argumentsRest (rounds : Nat) (tokens : List PlacedToken) : Moves true (rules.argumentsRest rounds) tokens := by
  induction rounds generalizing tokens with
  | zero => exact .complain nofun
  | succ rounds ih =>
    exact (h.assignment _).bind_taken fun _ _ => .eat _ (fun _ => .pure _)
      ((Moves.expect _).anyway.bind fun _ rest => (ih rest).then_return _)

theorem argumentList : Moves true rules.argumentList tokens :=
  .eat _ (fun _ => .pure _) (.bind .rounds h.argumentsRest)

theorem primary : Moves true rules.primary tokens := by
  refine .peek fun next hnext => ?_
  split
  case h_8 =>
    exact .advance hnext fun _ _ _ => (h.assignment _).anyway.bind fun _ _ =>
      (Moves.expect _).then_return _
  case h_9 =>
    refine .advance hnext fun _ _ _ => .peek fun next hnext => ?_
    split
    · exact .advance hnext fun _ _ _ => h.functionRest.anyway
    · exact h.functionRest.anyway
  case h_10 => exact .complain nofun
  all_goals exact .advance hnext fun _ _ _ => .pure _

omit h in
theorem countedBehind (expression : Expression) (upwards : Bool) {token : Token}
    (hnext : (bare tokens).head? = some token) : Moves true (Rules.countedBehind expression upwards) tokens := by
  refine .descend ?_
  split
  · exact .advance hnext fun _ _ _ => .pure _
  · exact .complain nofun

theorem suffixes (rounds : Nat) (expression : Expression) (tokens : List PlacedToken) :
    Moves false (rules.suffixes rounds expression) tokens := by
  induction rounds generalizing expression tokens with
  | zero => exact .pure _
  | succ rounds ih =>
    refine .peek fun next hnext => ?_
    split
    · exact .descend (.advance hnext fun _ _ _ => h.argumentList.anyway.bind fun _ rest => ih _ rest)
    · exact .descend (.advance hnext fun _ _ _ => Moves.identifier.anyway.bind fun _ rest => ih _ rest)
    · exact (countedBehind _ _ hnext).anyway.bind fun _ rest => ih _ rest
    · exact (countedBehind _ _ hnext).anyway.bind fun _ rest => ih _ rest
    · exact .pure _

theorem operatorFirst (operator : UnaryOperator) {token : Token} (hnext : (bare tokens).head? = some token) :
    Moves true (rules.operatorFirst operator) tokens :=
  .advance hnext fun _ _ _ => (h.prefixed _).then_return _

omit h in
theorem countedName (upwards : Bool) {token : Token} (hnext : (bare tokens).head? = some token) :
    Moves true (Rules.countedName upwards) tokens :=
  .advance hnext fun _ _ _ => Moves.identifier.then_return _

theorem unary : Moves true rules.unary tokens := by
  refine .peek fun next hnext => ?_
  split
  · exact h.operatorFirst _ hnext
  · exact h.operatorFirst _ hnext
  · exact h.operatorFirst _ hnext
  · exact h.operatorFirst _ hnext
  · exact countedName _ hnext
  · exact countedName _ hnext
  · exact h.primary.bind_taken fun _ _ => .bind .rounds fun _ rest => h.suffixes _ _ rest

theorem exponent : Moves true rules.exponent tokens :=
  h.unary.bind_taken fun _ _ => .eat _ (fun _ => (h.power _).then_return _) (.pure _)

omit h in
theorem chain (level : List Joiner) {operand : Parse Expression} (hoperand : ∀ tokens, Moves true operand tokens)
    (rounds : Nat) (left : Expression) (tokens : List PlacedToken) :
    Moves false (Rules.chain level operand rounds left) tokens := by
  induction rounds generalizing left tokens with
  | zero => exact .pure _
  | succ rounds ih =>
    refine .peek fun next hnext => ?_
    split
    · exact .pure _
    · rename_i join hjoin
      unfold joinerOf? at hjoin
      split at hjoin
      · exact .advance hnext fun _ _ _ => .descend ((hoperand _).anyway.bind fun _ rest => ih _ rest)
      · cases hjoin

theorem operators (levels : List (List Joiner)) (tokens : List PlacedToken) :
    Moves true (rules.operators levels) tokens := by
  induction levels generalizing tokens with
  | nil => exact h.exponent
  | cons level tighter ih =>
    exact (ih tokens).bind_taken fun _ _ => .bind .rounds fun _ rest => chain level ih _ _ rest

theorem conditional : Moves true rules.conditional tokens :=
  (h.operators _ _).bind_taken fun _ _ => .eat _
    (fun _ => (h.assignment _).anyway.bind fun _ _ => (Moves.expect _).anyway.bind fun _ _ =>
      (h.assignment _).then_return _)
    (.pure _)

theorem arrowBody : Moves true rules.arrowBody tokens :=
  .eat _ (fun _ => h.block.then_return _) ((h.assignment _).bind_taken fun _ _ => .pure _)

/-- What looks for an arrow function either reads one or takes nothing. -/
theorem arrowFunction?_bind {takes : Bool} {f : Option Expression → Parse β}
    (hfound : ∀ function rest, Moves false (f (some function)) rest) (hother : Moves takes (f none) tokens) :
    Moves takes (rules.arrowFunction? >>= f) tokens := by
  have hbody (parameters : List String) (rest : List PlacedToken) :
      Moves false (do f (some (.function parameters (← rules.arrowBody)))) rest :=
    h.arrowBody.anyway.bind fun _ rest => hfound _ rest
  unfold Rules.arrowFunction?
  simp only [bind_assoc]
  refine .peek fun next hfirst => .look 1 fun next' hsecond => ?_
  split
  · -- a name and an arrow
    simp only [bind_assoc, pure_bind]
    refine .advance hfirst fun place rest htokens => ?_
    have hnext : (bare rest).head? = some (.mark .arrow) := head?_bare_of_look htokens hsecond
    exact .advance hnext fun _ rest _ => hbody _ rest
  · rw [bind_assoc]
    refine .get fun depth => ?_
    dsimp only
    split
    · -- parameters in parentheses, with an arrow behind them
      rename_i hstarts
      have hopen : (bare tokens).head? = some (.mark .openParen) := head?_of_startsArrowFunction hstarts
      simp only [bind_assoc, pure_bind]
      exact .advance hopen fun _ _ _ => Moves.parameterList.anyway.bind fun _ _ =>
        (Moves.expect _).anyway.bind fun _ rest => hbody _ rest
    · exact hother

theorem expression : Moves true rules.expression tokens := by
  refine h.arrowFunction?_bind (fun _ _ => .pure _) ?_
  refine h.conditional.bind_taken fun target _ => .peek fun next hnext => ?_
  split
  · exact .pure _
  · rename_i operator hoperator
    split
    · unfold assignmentOperator? at hoperator
      split at hoperator
      case h_6 => cases hoperator
      all_goals exact .advance hnext fun _ _ _ => (h.assignment _).then_return _
    · exact .complain nofun

theorem bindings (rounds : Nat) (tokens : List PlacedToken) : Moves true (rules.bindings rounds) tokens := by
  induction rounds generalizing tokens with
  | zero => exact .complain nofun
  | succ rounds ih =>
    have hmore (name : String) (value : Option Expression) (rest : List PlacedToken) :
        Moves false (do
          if ← Parse.eat (.mark .comma) then return (name, value) :: (← rules.bindings rounds)
          else return [(name, value)]) rest :=
      .eat _ (fun rest => (ih rest).then_return _) (.pure _)
    exact Moves.identifier.bind_taken fun name _ => .eat _
      (fun _ => .bind ((h.assignment _).then_return _) fun value rest => hmore name value rest)
      (.bind (.pure _) fun value rest => hmore name value rest)

theorem declaration {token : Token} (hnext : (bare tokens).head? = some token) :
    Moves true rules.declaration tokens :=
  .advance hnext fun _ _ _ => .bind .rounds fun _ _ => (h.bindings _ _).then_return _

theorem testInParentheses {token : Token} (hnext : (bare tokens).head? = some token) :
    Moves true rules.testInParentheses tokens :=
  .advance hnext fun _ _ _ => (Moves.expect _).anyway.bind fun _ _ => (h.assignment _).anyway.bind fun _ _ =>
    (Moves.expect _).then_return _

/-- Only the empty statement, in front of its semicolon, takes nothing itself. -/
theorem bareStatement (tokens : List PlacedToken) :
    Moves (decide ((bare tokens).head? ≠ some (.mark .semicolon))) rules.bareStatement tokens := by
  have hexpression {tokens : List PlacedToken} {takes : Bool} :
      Moves takes (do return Statement.expression (← rules.assignment)) tokens := by
    refine .bind_taken ?_ fun _ _ => .pure _
    cases takes with
    | true => exact h.assignment _
    | false => exact (h.assignment _).anyway
  refine .peek fun next hnext => ?_
  rw [hnext]
  split
  -- the empty statement is the one that takes nothing
  case h_8 => exact .pure _
  case h_1 => exact .advance hnext fun _ _ _ => h.block.then_return _
  case h_2 | h_3 | h_4 => exact h.declaration hnext
  case h_5 =>
    exact (h.testInParentheses hnext).bind_taken fun _ _ => (h.statement _).anyway.bind fun _ _ =>
      .eat _ (fun _ => (h.statement _).then_return _) (.pure _)
  case h_6 => exact (h.testInParentheses hnext).bind_taken fun _ _ => (h.statement _).then_return _
  case h_7 =>
    refine .advance hnext fun _ _ _ => .peek fun next _ => ?_
    split
    · exact .pure _
    · exact .pure _
    · exact .pure _
    · exact (h.assignment _).then_return _
  case h_9 =>
    -- a function is declared if a name follows, and is an expression otherwise
    refine .look 1 fun next' hsecond => ?_
    split
    · rename_i name
      refine .advance hnext fun place rest htokens => ?_
      have hname : (bare rest).head? = some (.identifier name) := head?_bare_of_look htokens hsecond
      exact .advance hname fun _ _ _ => h.functionRest.then_return _
    · exact hexpression
  case h_10 => exact hexpression

theorem terminated : Moves true rules.terminated tokens := by
  by_cases hnext : (bare tokens).head? = some (.mark .semicolon)
  · -- the semicolon that the empty statement leaves is taken behind it
    cases tokens with
    | nil => cases hnext
    | cons place rest =>
      have hplace : place.token = .mark .semicolon := Option.some.inj hnext
      intro depth
      have hempty : rules.bareStatement.run ⟨depth, place :: rest⟩ = .ok (.empty, ⟨depth, place :: rest⟩) := by
        unfold Rules.bareStatement
        rw [run_peek_cons, hplace]
        rfl
      have htaken : rules.terminated.run ⟨depth, place :: rest⟩ = .ok (.empty, ⟨depth, rest⟩) :=
        (run_bind_ok hempty _).trans (run_bind_ok (run_bind_ok (run_eat_next hplace) fun _ => pure ()) _)
      rw [htaken]
      exact .ok (List.suffix_cons _ _) (fun _ => Nat.lt_succ_self _) (Nat.le_refl _)
  · have hbare := h.bareStatement tokens
    rw [decide_eq_true hnext] at hbare
    exact hbare.bind_taken fun _ _ =>
      .bind (.eat (f := fun _ => pure ()) _ (fun _ => .pure _) (.pure _)) fun _ _ => .pure _

end Rules.AllMove

theorem allMove_rulesAt (levels : Nat) : (rulesAt levels).AllMove := by
  induction levels with
  | zero =>
    exact ⟨fun _ => .complain nofun, fun _ => .complain nofun, fun _ => .complain nofun, fun _ => .complain nofun⟩
  | succ levels ih =>
    exact ⟨fun _ => .nested ih.terminated, fun _ => .nested ih.expression, fun _ => .nested ih.exponent,
      fun _ => .nested ih.unary⟩

end SequenceNotation.Script
