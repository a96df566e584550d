import SequenceNotation.Proofs.Script.ReaderLoops

/-!
# Readers call each other within limits

The reader is a set of procedures that call each other.  A call that is not nested goes to a procedure of a lower rank,
so that every cycle of calls goes one level deeper, and nothing is read below the deepest level.  With the ranks counted
for each level no more calls are open at any time.
-/

namespace SequenceNotation.Script

open Parse

/-- The procedures of the reader, by what they read. -/
inductive Procedure : Type → Type
  | statement : Procedure Statement
  | terminated : Procedure Statement
  | bareStatement : Procedure Statement
  | block : Procedure (List Statement)
  /-- What is declared behind the word for it. -/
  | declaration : Procedure Statement
  | functionRest : Procedure Expression
  | assignment : Procedure Expression
  | expression : Procedure Expression
  | arrowFunction : Procedure (Option Expression)
  | arrowBody : Procedure FunctionBody
  | conditional : Procedure Expression
  /-- Operands separated by the operators of a level. -/
  | operators (level : Nat) : Procedure Expression
  | power : Procedure Expression
  | exponent : Procedure Expression
  | prefixed : Procedure Expression
  | unary : Procedure Expression
  /-- A primary with the calls, members and counting behind it. -/
  | suffixed : Procedure Expression
  | argumentList : Procedure (List Expression)
  | primary : Procedure Expression

/-- What a call of each procedure does. -/
abbrev Calls : Type 1 :=
  (α : Type) → Procedure α → Parse α

namespace Procedure

variable {α : Type}

/-- What the procedure does with the rules. -/
def read (rules : Rules) : Calls
  | _, statement => rules.statement
  | _, terminated => rules.terminated
  | _, bareStatement => rules.bareStatement
  | _, block => rules.block
  | _, declaration => do return .declare (← rules.bindings (← rounds))
  | _, functionRest => rules.functionRest
  | _, assignment => rules.assignment
  | _, expression => rules.expression
  | _, arrowFunction => rules.arrowFunction?
  | _, arrowBody => rules.arrowBody
  | _, conditional => rules.conditional
  | _, operators level => rules.operators (operatorLevels.drop level)
  | _, power => rules.power
  | _, exponent => rules.exponent
  | _, prefixed => rules.prefixed
  | _, unary => rules.unary
  | _, suffixed => do
    let expression ← rules.primary
    rules.suffixes (← rounds) expression
  | _, argumentList => rules.argumentList
  | _, primary => rules.primary

/-- Whether the procedure is sure to take a token. -/
def takes : {α : Type} → Procedure α → Bool
  | _, bareStatement | _, arrowFunction => false
  | _, _ => true

theorem moves_read {rules : Rules} (h : rules.AllMove) (p : Procedure α) (tokens : List PlacedToken) :
    Moves p.takes (read rules α p) tokens := by
  cases p with
  | statement => exact h.statement tokens
  | terminated => exact h.terminated
  | bareStatement => exact (h.bareStatement tokens).anyway
  | block => exact h.block
  | declaration => exact .bind .rounds fun _ _ => (h.bindings _ _).bind_taken fun _ _ => .pure _
  | functionRest => exact h.functionRest
  | assignment => exact h.assignment tokens
  | expression => exact h.expression
  | arrowFunction =>
    have hmoves : Moves false (rules.arrowFunction? >>= pure) tokens :=
      h.arrowFunction?_bind (fun _ _ => .pure _) (.pure none)
    rwa [bind_pure] at hmoves
  | arrowBody => exact h.arrowBody
  | conditional => exact h.conditional
  | operators level => exact h.operators _ tokens
  | power => exact h.power tokens
  | exponent => exact h.exponent
  | prefixed => exact h.prefixed tokens
  | unary => exact h.unary
  | suffixed => exact h.primary.bind_taken fun _ _ => .bind .rounds fun _ rest => h.suffixes _ _ rest
  | argumentList => exact h.argumentList
  | primary => exact h.primary

theorem onward_read {rules : Rules} (h : rules.AllMove) (p : Procedure α) : Onward false (read rules α p) :=
  Moves.onward fun tokens => (moves_read h p tokens).anyway

/-- The nested procedures as rules. -/
def nestedRules (call : Calls) : Rules where
  statement := call _ statement
  assignment := call _ assignment
  power := call _ power
  prefixed := call _ prefixed

/-- What the procedure does, given what its calls do.  Another round of a loop is not a call. -/
def body (call : Calls) : {α : Type} → Procedure α → Parse α
  | _, statement => nested (call _ terminated)
  | _, assignment => nested (call _ expression)
  | _, power => nested (call _ exponent)
  | _, prefixed => nested (call _ unary)
  | _, terminated => do
    let statement ← call _ bareStatement
    discard (eat (.mark .semicolon))
    return statement
  | _, bareStatement => do
    match ← peek? 0 with
    | some (.mark .openBrace) =>
      advance
      return .block (← call _ block)
    | some (.keyword .letWord) => advance; call _ declaration
    | some (.keyword .varWord) => advance; call _ declaration
    | some (.keyword .constWord) => advance; call _ declaration
    | some (.keyword .ifWord) =>
      let test ← (nestedRules call).testInParentheses
      let consequent ← call _ statement
      if ← eat (.keyword .elseWord) then
        return .conditional test consequent (some (← call _ statement))
      else
        return .conditional test consequent none
    | some (.keyword .whileWord) =>
      let test ← (nestedRules call).testInParentheses
      return .loop test (← call _ statement)
    | some (.keyword .returnWord) =>
      advance
      match ← peek? 0 with
      | none => return .result none
      | some (.mark .semicolon) => return .result none
      | some (.mark .closeBrace) => return .result none
      | some _ => return .result (some (← call _ assignment))
    | some (.mark .semicolon) => return .empty
    | some (.keyword .functionWord) =>
      match ← peek? 1 with
      | some (.identifier name) =>
        advance
        advance
        return .declare [(name, some (← call _ functionRest))]
      | _ => return .expression (← call _ assignment)
    | _ => return .expression (← call _ assignment)
  | _, block => (nestedRules call).block
  | _, declaration => do return .declare (← (nestedRules call).bindings (← rounds))
  | _, functionRest => do
    expect (.mark .openParen)
    let parameters ← parameterList
    expect (.mark .openBrace)
    return .function parameters (.block (← call _ block))
  | _, expression => do
    if let some function ← call _ arrowFunction then
      return function
    else
      let target ← call _ conditional
      match Rules.assignmentOperator? (← peek? 0) with
      | none => return target
      | some operator =>
        match target with
        | .name name =>
          advance
          return .assign name operator (← call _ assignment)
        | _ => complain .assignmentTarget
  | _, arrowFunction => do
    match ← peek? 0, ← peek? 1 with
    | some (.identifier name), some (.mark .arrow) =>
      advance
      advance
      return some (.function [name] (← call _ arrowBody))
    | _, _ =>
      if startsArrowFunction (← get).tokens then
        advance
        let parameters ← parameterList
        expect (.mark .arrow)
        return some (.function parameters (← call _ arrowBody))
      else
        return none
  | _, arrowBody => do
    if ← eat (.mark .openBrace) then
      return .block (← call _ block)
    else
      return .expression (← call _ assignment)
  | _, conditional => do
    let test ← call _ (operators 0)
    if ← eat (.mark .question) then
      let consequent ← call _ assignment
      expect (.mark .colon)
      return .conditional test consequent (← call _ assignment)
    else
      return test
  | _, operators level =>
    match operatorLevels[level]? with
    | none => call _ exponent
    | some joiners => do
      let left ← call _ (operators (level + 1))
      Rules.chain joiners (call _ (operators (level + 1))) (← rounds) left
  | _, exponent => do
    let base ← call _ unary
    if ← eat (.mark .power) then
      return .binary .power base (← call _ power)
    else
      return base
  | _, unary => do
    match ← peek? 0 with
    | some (.mark .minus) => (nestedRules call).operatorFirst .negate
    | some (.mark .plus) => (nestedRules call).operatorFirst .plus
    | some (.mark .not) => (nestedRules call).operatorFirst .not
    | some (.keyword .typeofWord) => (nestedRules call).operatorFirst .typeof
    | some (.mark .increment) => Rules.countedName true
    | some (.mark .decrement) => Rules.countedName false
    | _ => call _ suffixed
  | _, suffixed => do
    let expression ← call _ primary
    (suffixRound (call _ argumentList))^[← rounds] pure expression
  | _, argumentList => (nestedRules call).argumentList
  | _, primary => do
    match ← peek? 0 with
    | some (.number value) => advance; return .number value
    | some (.string text) => advance; return .text text
    | some (.keyword .trueWord) => advance; return .boolean true
    | some (.keyword .falseWord) => advance; return .boolean false
    | some (.keyword .nullWord) => advance; return .null
    | some (.keyword .undefinedWord) => advance; return .undefined
    | some (.identifier name) => advance; return .name name
    | some (.mark .openParen) =>
      advance
      let inner ← call _ assignment
      expect (.mark .closeParen)
      return inner
    | some (.keyword .functionWord) =>
      advance
      if let some (.identifier _) ← peek? 0 then advance
      call _ functionRest
    | _ => complain .expectedExpression

/-- The rank of the procedure.  It calls only procedures of lower ranks but for those that are nested. -/
def rank : {α : Type} → Procedure α → Nat
  | _, statement | _, assignment | _, power | _, prefixed => 0
  | _, block | _, declaration | _, argumentList => 1
  | _, functionRest | _, arrowBody => 2
  | _, primary | _, arrowFunction | _, bareStatement => 3
  | _, terminated | _, suffixed => 4
  | _, unary => 5
  | _, exponent => 6
  | _, operators level => 7 + (operatorLevels.length - level)
  | _, conditional => 15
  | _, expression => 16

theorem rank_operators_pos (level : Nat) : 0 < (operators level).rank :=
  Nat.lt_of_lt_of_le (by decide) (Nat.le_add_right 7 _)

theorem rank_lt (p : Procedure α) : p.rank < 17 := by
  cases p with
  | operators level =>
    have hlength : operatorLevels.length = 7 := rfl
    simp only [rank]
    omega
  | _ => decide

/-! ### The rules are procedures -/

theorem suffixes_eq_iterate (rules : Rules) (n : Nat) :
    rules.suffixes n = (suffixRound rules.argumentList)^[n] pure := by
  induction n with
  | zero => rfl
  | succ n ih =>
    rw [Function.iterate_succ_apply', ← ih]
    rfl

/-- What is not nested is what the rules say. -/
theorem body_read (rules : Rules) (p : Procedure α) (hp : 0 < p.rank) : p.body (read rules) = read rules α p := by
  cases p with
  | statement | assignment | power | prefixed => exact absurd hp (Nat.lt_irrefl 0)
  | operators level =>
    simp only [body, read]
    cases hlevel : operatorLevels[level]? with
    | none =>
      rw [List.drop_eq_nil_of_le (List.getElem?_eq_none_iff.1 hlevel)]
      rfl
    | some joiners =>
      obtain ⟨hlt, hjoiners⟩ := List.getElem?_eq_some_iff.1 hlevel
      rw [List.drop_eq_getElem_cons hlt, hjoiners]
      rfl
  | suffixed =>
    simp only [body, read, suffixes_eq_iterate]
  | _ => rfl

end Procedure

/-! ### Readers that do the same from a depth on -/

variable {α β : Type}

/-- From the depth on the readers do the same, and the second never goes back to a lower one. -/
structure Alike (depth : Nat) (x y : Parse α) : Prop where
  same : SameOn (fun s => depth ≤ s.depth) x y
  onward : Onward false y

namespace Alike

variable {depth : Nat} {x y : Parse α} {f g : α → Parse β}

theorem bind (h : Alike depth x y) (hf : ∀ a, Alike depth (f a) (g a)) : Alike depth (x >>= f) (y >>= g) where
  same := h.same.bind (fun _ _ _ hs hrun => Nat.le_trans hs (h.onward _ _ _ hrun).2) fun a => (hf a).same
  onward := h.onward.bind (fun a => (hf a).onward) (Nat.le_refl _)

theorem mono {more : Nat} (h : Alike depth x y) (hmore : depth ≤ more) : Alike more x y where
  same s hs := h.same s (Nat.le_trans hmore hs)
  onward := h.onward

theorem of_onward {takes : Bool} (h : Onward takes x) : Alike depth x x where
  same := .refl _ x
  onward s a t hrun := ⟨Nat.le_trans (Nat.le_add_right _ _) (h s a t hrun).1, (h s a t hrun).2⟩

theorem of_moves {takes : Bool} (h : ∀ tokens, Moves takes x tokens) : Alike depth x x :=
  of_onward (Moves.onward h)

theorem pure (a : α) : Alike depth (pure a) (pure a) :=
  of_moves fun _ => .pure a

theorem complain {complaint : Complaint} (h : complaint ≠ .pastEnd) :
    Alike depth (complain complaint : Parse α) (Parse.complain complaint) :=
  of_moves fun _ => (show Moves false _ _ from .complain h)

theorem rounds : Alike depth rounds rounds :=
  of_moves fun _ => .rounds

/-- What is nested needs to do the same one level deeper only, if that is read at all. -/
theorem nested (h : depth < maxNesting → SameOn (fun s => depth + 1 ≤ s.depth) x y) (hy : Onward false y) :
    Alike depth (Parse.nested x) (Parse.nested y) where
  same := by
    intro s hs
    rw [run_nested, run_nested]
    by_cases hdeep : maxNesting < s.depth + 1
    · rw [if_pos hdeep, if_pos hdeep]
    · have hdepth : depth < maxNesting := by omega
      rw [if_neg hdeep, if_neg hdeep, h hdepth _ (Nat.succ_le_succ hs)]
  onward := hy.nested

theorem chain (level : List Joiner) {x y : Parse Expression} (h : Alike depth x y) (rounds : Nat) (left : Expression) :
    Alike depth (Rules.chain level x rounds left) (Rules.chain level y rounds left) := by
  induction rounds generalizing left with
  | zero => exact .pure _
  | succ rounds ih =>
    refine .bind (of_onward (.look 0)) fun next => ?_
    split
    · exact .pure _
    · exact .bind (of_onward .advance) fun _ => .bind (of_onward .descend) fun _ => h.bind fun _ => ih _

theorem suffixRound {x y : Parse (List Expression)} (h : Alike depth x y) {f g : Expression → Parse Expression}
    (hf : ∀ expression, Alike depth (f expression) (g expression)) (expression : Expression) :
    Alike depth (suffixRound x f expression) (suffixRound y g expression) := by
  refine .bind (of_onward (.look 0)) fun next => ?_
  split
  · exact .bind (of_onward .descend) fun _ => .bind (of_onward .advance) fun _ => h.bind fun _ => hf _
  · exact .bind (of_onward .descend) fun _ => .bind (of_onward .advance) fun _ =>
      .bind (of_moves fun _ => .identifier) fun _ => hf _
  · exact .bind (of_onward (.countedBehind _ _)) fun _ => hf _
  · exact .bind (of_onward (.countedBehind _ _)) fun _ => hf _
  · exact .pure _

theorem suffixes {x y : Parse (List Expression)} (h : Alike depth x y) (rounds : Nat) (expression : Expression) :
    Alike depth ((Script.suffixRound x)^[rounds] Pure.pure expression)
      ((Script.suffixRound y)^[rounds] Pure.pure expression) := by
  induction rounds generalizing expression with
  | zero => exact .pure _
  | succ rounds ih =>
    rw [Function.iterate_succ_apply', Function.iterate_succ_apply']
    exact h.suffixRound ih expression

/-- At the deepest level nothing nested is read. -/
theorem tooDeep (hy : Onward false y) : Alike maxNesting (Parse.complain .tooDeep) (Parse.nested y) where
  same := by
    intro s hs
    rw [run_nested, if_pos (Nat.lt_succ_of_le hs)]
    rfl
  onward := hy.nested

theorem eq (h : Alike 0 x y) : x = y :=
  funext fun s => h.same s (Nat.zero_le _)

end Alike

/-- The nested rules do the same from the depth on. -/
structure Rules.AllAlike (depth : Nat) (rules rules' : Rules) : Prop where
  statement : Alike depth rules.statement rules'.statement
  assignment : Alike depth rules.assignment rules'.assignment
  power : Alike depth rules.power rules'.power
  prefixed : Alike depth rules.prefixed rules'.prefixed

namespace Rules.AllAlike

variable {depth : Nat} {rules rules' : Rules} (h : rules.AllAlike depth rules')
include h

theorem blockRest (rounds : Nat) : Alike depth (rules.blockRest rounds) (rules'.blockRest rounds) := by
  induction rounds with
  | zero => exact .complain nofun
  | succ rounds ih =>
    refine .bind (.of_onward (.look 0)) fun next => ?_
    split
    · exact .bind (.of_onward .advance) fun _ => .pure _
    · exact .complain nofun
    · exact h.statement.bind fun _ => ih.bind fun _ => .pure _

theorem argumentsRest (rounds : Nat) : Alike depth (rules.argumentsRest rounds) (rules'.argumentsRest rounds) := by
  induction rounds with
  | zero => exact .complain nofun
  | succ rounds ih =>
    refine h.assignment.bind fun _ => .bind (.of_onward (.eat _)) fun closed => ?_
    cases closed with
    | true => exact .pure _
    | false => exact .bind (.of_moves fun _ => .expect _) fun _ => ih.bind fun _ => .pure _

theorem argumentList : Alike depth rules.argumentList rules'.argumentList := by
  refine .bind (.of_onward (.eat _)) fun closed => ?_
  cases closed with
  | true => exact .pure _
  | false => exact .bind .rounds h.argumentsRest

theorem operatorFirst (operator : UnaryOperator) :
    Alike depth (rules.operatorFirst operator) (rules'.operatorFirst operator) :=
  .bind (.of_onward .advance) fun _ => h.prefixed.bind fun _ => .pure _

theorem bindings (rounds : Nat) : Alike depth (rules.bindings rounds) (rules'.bindings rounds) := by
  induction rounds with
  | zero => exact .complain nofun
  | succ rounds ih =>
    refine .bind (.of_moves fun _ => .identifier) fun name => .bind (.of_onward (.eat _)) fun assigned => ?_
    have hmore (value : Option Expression) : Alike depth
        (do if ← eat (.mark .comma) then return (name, value) :: (← rules.bindings rounds) else return [(name, value)])
        (do if ← eat (.mark .comma) then return (name, value) :: (← rules'.bindings rounds)
            else return [(name, value)]) := by
      refine .bind (.of_onward (.eat _)) fun more => ?_
      cases more with
      | true => exact ih.bind fun _ => .pure _
      | false => exact .pure _
    cases assigned with
    | true => exact .bind (h.assignment.bind fun _ => .pure _) hmore
    | false => exact .bind (.pure _) hmore

theorem testInParentheses : Alike depth rules.testInParentheses rules'.testInParentheses :=
  .bind (.of_onward .advance) fun _ => .bind (.of_moves fun _ => .expect _) fun _ => h.assignment.bind fun _ =>
    .bind (.of_moves fun _ => .expect _) fun _ => .pure _

end Rules.AllAlike

/-! ### Calls of lower ranks -/

namespace Procedure

variable {depth : Nat} {call call' : Calls}

/-- What is not nested calls nothing but procedures of lower ranks. -/
theorem body_congr (p : Procedure α) (hp : 0 < p.rank)
    (h : ∀ {β : Type} (q : Procedure β), q.rank < p.rank → call β q = call' β q) : p.body call = p.body call' := by
  have hnested : nestedRules call = nestedRules call' := by
    simp only [nestedRules, h statement hp, h assignment hp, h power hp, h prefixed hp]
  cases p with
  | statement | assignment | power | prefixed => exact absurd hp (Nat.lt_irrefl 0)
  | terminated => simp only [body, h bareStatement (by decide)]
  | bareStatement =>
    simp only [body, hnested, h statement hp, h assignment hp, h block (by decide), h declaration (by decide),
      h functionRest (by decide)]
  | block | declaration | argumentList => simp only [body, hnested]
  | functionRest => simp only [body, h block (by decide)]
  | expression => simp only [body, h assignment hp, h arrowFunction (by decide), h conditional (by decide)]
  | arrowFunction => simp only [body, h arrowBody (by decide)]
  | arrowBody => simp only [body, h assignment hp, h block (by decide)]
  | conditional => simp only [body, h assignment hp, h (operators 0) (by decide)]
  | operators level =>
    simp only [body, h exponent (Nat.lt_of_lt_of_le (by decide) (Nat.le_add_right 7 _))]
    split
    · rfl
    · -- tighter operators have a lower rank
      have hlt := (List.getElem?_eq_some_iff.1 ‹_›).1
      rw [h (operators (level + 1)) (by simp only [rank]; omega)]
  | exponent => simp only [body, h power hp, h unary (by decide)]
  | unary => simp only [body, hnested, h suffixed (by decide)]
  | suffixed => simp only [body, h primary (by decide), h argumentList (by decide)]
  | primary => simp only [body, h assignment hp, h functionRest (by decide)]

/-- What is nested calls one procedure, one level deeper. -/
theorem exists_nested (p : Procedure α) (hp : p.rank = 0) : ∃ q : Procedure α,
    (∀ call : Calls, p.body call = nested (call α q)) ∧
      ∀ levels, read (rulesAt (levels + 1)) α p = nested (read (rulesAt levels) α q) := by
  cases p with
  | statement => exact ⟨terminated, fun _ => rfl, fun _ => rfl⟩
  | assignment => exact ⟨expression, fun _ => rfl, fun _ => rfl⟩
  | power => exact ⟨exponent, fun _ => rfl, fun _ => rfl⟩
  | prefixed => exact ⟨unary, fun _ => rfl, fun _ => rfl⟩
  | operators level => exact absurd hp (Nat.ne_of_gt (rank_operators_pos level))
  | _ => cases hp

/-- From the depth on the procedures of lower ranks do the same. -/
abbrev AlikeBelow (depth rank : Nat) (call call' : Calls) : Prop :=
  ∀ {β : Type} (q : Procedure β), q.rank < rank → Alike depth (call β q) (call' β q)

theorem AlikeBelow.nestedRules {rank : Nat} (h : AlikeBelow depth rank call call') (hrank : 0 < rank) :
    (nestedRules call).AllAlike depth (nestedRules call') :=
  ⟨h statement hrank, h assignment hrank, h power hrank, h prefixed hrank⟩

theorem alike_bareStatement (h : AlikeBelow depth bareStatement.rank call call') :
    Alike depth (bareStatement.body call) (bareStatement.body call') := by
  have hnested := AlikeBelow.nestedRules h (by decide)
  have hassignment := h assignment (by decide)
  have hexpression : Alike depth (do return Statement.expression (← call _ assignment))
      (do return Statement.expression (← call' _ assignment)) :=
    hassignment.bind fun _ => .pure _
  refine .bind (.of_onward (.look 0)) fun next => ?_
  split
  case h_1 => exact .bind (.of_onward .advance) fun _ => (h block (by decide)).bind fun _ => .pure _
  case h_2 | h_3 | h_4 => exact .bind (.of_onward .advance) fun _ => h declaration (by decide)
  case h_5 =>
    -- a conditional statement
    refine hnested.testInParentheses.bind fun _ => hnested.statement.bind fun _ =>
      .bind (.of_onward (.eat _)) fun otherwise => ?_
    cases otherwise with
    | true => exact hnested.statement.bind fun _ => .pure _
    | false => exact .pure _
  case h_6 => exact hnested.testInParentheses.bind fun _ => hnested.statement.bind fun _ => .pure _
  case h_7 =>
    -- a result, which has no expression in front of the end of the statement
    refine .bind (.of_onward .advance) fun _ => .bind (.of_onward (.look 0)) fun next => ?_
    split
    · exact .pure _
    · exact .pure _
    · exact .pure _
    · exact hassignment.bind fun _ => .pure _
  case h_8 => exact .pure _
  case h_9 =>
    -- a function is declared only if it has a name
    refine .bind (.of_onward (.look 1)) fun next => ?_
    split
    · exact .bind (.of_onward .advance) fun _ => .bind (.of_onward .advance) fun _ =>
        (h functionRest (by decide)).bind fun _ => .pure _
    · exact hexpression
  case h_10 => exact hexpression

theorem alike_expression (h : AlikeBelow depth expression.rank call call') :
    Alike depth (expression.body call) (expression.body call') := by
  have hassignment := h assignment (by decide)
  refine (h arrowFunction (by decide)).bind fun found => ?_
  split
  · exact .pure _
  · refine (h conditional (by decide)).bind fun target => .bind (.of_onward (.look 0)) fun next => ?_
    split
    · exact .pure _
    · split
      · exact .bind (.of_onward .advance) fun _ => hassignment.bind fun _ => .pure _
      · exact .complain nofun

theorem alike_arrowFunction (h : AlikeBelow depth arrowFunction.rank call call') :
    Alike depth (arrowFunction.body call) (arrowFunction.body call') := by
  have hbody := h arrowBody (by decide)
  refine .bind (.of_onward (.look 0)) fun first => .bind (.of_onward (.look 1)) fun second => ?_
  split
  · exact .bind (.of_onward .advance) fun _ => .bind (.of_onward .advance) fun _ => hbody.bind fun _ => .pure _
  · refine .bind (.of_onward .get) fun s => ?_
    split
    · exact .bind (.of_onward .advance) fun _ => .bind (.of_moves fun _ => .parameterList) fun _ =>
        .bind (.of_moves fun _ => .expect _) fun _ => hbody.bind fun _ => .pure _
    · exact .pure _

theorem alike_conditional (h : AlikeBelow depth conditional.rank call call') :
    Alike depth (conditional.body call) (conditional.body call') := by
  have hassignment := h assignment (by decide)
  refine (h (operators 0) (by decide)).bind fun test => .bind (.of_onward (.eat _)) fun asked => ?_
  cases asked with
  | true =>
    exact hassignment.bind fun _ => .bind (.of_moves fun _ => .expect _) fun _ => hassignment.bind fun _ => .pure _
  | false => exact .pure _

theorem alike_operators (level : Nat) (h : AlikeBelow depth (operators level).rank call call') :
    Alike depth ((operators level).body call) ((operators level).body call') := by
  simp only [body]
  cases hlevel : operatorLevels[level]? with
  | none => exact h exponent (Nat.lt_of_lt_of_le (by decide) (Nat.le_add_right 7 _))
  | some joiners =>
    -- the level is one of those that are left
    obtain ⟨hlt, -⟩ := List.getElem?_eq_some_iff.1 hlevel
    have htighter := h (operators (level + 1)) (by simp only [rank]; omega)
    exact htighter.bind fun _ => .bind .rounds fun _ => htighter.chain joiners _ _

theorem alike_unary (h : AlikeBelow depth unary.rank call call') :
    Alike depth (unary.body call) (unary.body call') := by
  have hnested := AlikeBelow.nestedRules h (by decide)
  refine .bind (.of_onward (.look 0)) fun next => ?_
  split
  case h_5 | h_6 => exact .bind (.of_onward .advance) fun _ => .bind (.of_moves fun _ => .identifier) fun _ => .pure _
  case h_7 => exact h suffixed (by decide)
  all_goals exact hnested.operatorFirst _

theorem alike_primary (h : AlikeBelow depth primary.rank call call') :
    Alike depth (primary.body call) (primary.body call') := by
  have hassignment := h assignment (by decide)
  refine .bind (.of_onward (.look 0)) fun next => ?_
  split
  case h_8 =>
    exact .bind (.of_onward .advance) fun _ => hassignment.bind fun _ => .bind (.of_moves fun _ => .expect _)
      fun _ => .pure _
  case h_9 =>
    -- a function may have a name, which is not kept
    have hrest := h functionRest (by decide)
    refine .bind (.of_onward .advance) fun _ => .bind (.of_onward (.look 0)) fun next => ?_
    split
    · exact .bind (.of_onward .advance) fun _ => hrest
    · exact hrest
  case h_10 => exact .complain nofun
  all_goals exact .bind (.of_onward .advance) fun _ => .pure _

/-- What is not nested does the same if the procedures of lower ranks do. -/
theorem alike_body (p : Procedure α) (hp : 0 < p.rank) (h : AlikeBelow depth p.rank call call') :
    Alike depth (p.body call) (p.body call') := by
  have hnested := AlikeBelow.nestedRules h hp
  cases p with
  | statement | assignment | power | prefixed => exact absurd hp (Nat.lt_irrefl 0)
  | terminated =>
    exact (h bareStatement (by decide)).bind fun _ =>
      .bind (.bind (.of_onward (.eat _)) fun _ => .pure _) fun _ => .pure _
  | bareStatement => exact alike_bareStatement h
  | block => exact .bind .rounds hnested.blockRest
  | declaration => exact .bind .rounds fun _ => (hnested.bindings _).bind fun _ => .pure _
  | functionRest =>
    have hblock := h block (by decide)
    exact .bind (.of_moves fun _ => .expect _) fun _ => .bind (.of_moves fun _ => .parameterList) fun _ =>
      .bind (.of_moves fun _ => .expect _) fun _ => hblock.bind fun _ => .pure _
  | expression => exact alike_expression h
  | arrowFunction => exact alike_arrowFunction h
  | arrowBody =>
    refine .bind (.of_onward (.eat _)) fun braced => ?_
    cases braced with
    | true => exact (h block (by decide)).bind fun _ => .pure _
    | false => exact hnested.assignment.bind fun _ => .pure _
  | conditional => exact alike_conditional h
  | operators level => exact alike_operators level h
  | exponent =>
    refine (h unary (by decide)).bind fun base => .bind (.of_onward (.eat _)) fun raised => ?_
    cases raised with
    | true => exact hnested.power.bind fun _ => .pure _
    | false => exact .pure _
  | unary => exact alike_unary h
  | suffixed =>
    exact (h primary (by decide)).bind fun _ => .bind .rounds fun _ => (h argumentList (by decide)).suffixes _ _
  | argumentList => exact hnested.argumentList
  | primary => exact alike_primary h

/-- What is read with rules does the same if the nested rules do. -/
theorem alike_read {rules rules' : Rules} (h : rules.AllAlike depth rules') {α : Type} (p : Procedure α) :
    Alike depth (read rules α p) (read rules' α p) := by
  by_cases hp : 0 < p.rank
  · -- rank by rank, down to the nested rules
    rw [← body_read rules p hp, ← body_read rules' p hp]
    exact alike_body p hp fun q _ => alike_read h q
  · cases p with
    | statement => exact h.statement
    | assignment => exact h.assignment
    | power => exact h.power
    | prefixed => exact h.prefixed
    | operators level => exact absurd (rank_operators_pos level) hp
    | _ => exact absurd (by decide) hp
termination_by p.rank

/-! ### Levels -/

/-- One level more makes no difference where it is not reached. -/
theorem alike_rulesAt {levels : Nat} (hlevels : levels ≤ maxNesting) :
    (rulesAt levels).AllAlike (maxNesting - levels) (rulesAt (levels + 1)) := by
  have honward {α : Type} (p : Procedure α) : Onward false (read (rulesAt levels) α p) :=
    onward_read (allMove_rulesAt levels) p
  induction levels with
  | zero =>
    exact ⟨.tooDeep (honward terminated), .tooDeep (honward expression), .tooDeep (honward exponent),
      .tooDeep (honward unary)⟩
  | succ levels ih =>
    have hdeeper := ih (Nat.le_of_succ_le hlevels) (onward_read (allMove_rulesAt levels))
    have hdepth : maxNesting - (levels + 1) + 1 = maxNesting - levels := by omega
    have hsame {α : Type} (p : Procedure α) : SameOn (fun s => maxNesting - (levels + 1) + 1 ≤ s.depth)
        (read (rulesAt levels) α p) (read (rulesAt (levels + 1)) α p) :=
      hdepth ▸ (alike_read hdeeper p).same
    exact ⟨.nested (fun _ => hsame terminated) (honward terminated),
      .nested (fun _ => hsame expression) (honward expression), .nested (fun _ => hsame exponent) (honward exponent),
      .nested (fun _ => hsame unary) (honward unary)⟩

theorem read_rulesAt_maxNesting (p : Procedure α) : read (rulesAt maxNesting) α p = read grammar α p := by
  have hall := alike_rulesAt (Nat.le_refl maxNesting)
  rw [Nat.sub_self] at hall
  exact (alike_read hall p).eq

/-- The grammar is made of procedures that call those of the grammar. -/
theorem body_grammar (p : Procedure α) : p.body (read grammar) = read grammar α p := by
  rcases Nat.eq_zero_or_pos p.rank with hp | hp
  · -- the grammar has one level more than what it is nested over
    obtain ⟨q, hbody, hread⟩ := exists_nested p hp
    rw [hbody, ← read_rulesAt_maxNesting q]
    exact (hread maxNesting).symm
  · exact body_read grammar p hp

end Procedure

/-! ### Open calls -/

namespace Calls

open Procedure

variable {depth rank : Nat} {call : Calls}

/-- With one call more open: what each procedure does, given what its calls do. -/
def oneMore (call : Calls) : Calls :=
  fun _ p => p.body call

/-- From the depth on the procedures of lower ranks do what they do in the grammar, and one level deeper all do. -/
structure Settled (depth rank : Nat) (call : Calls) : Prop where
  lower : ∀ {α : Type} (p : Procedure α), p.rank < rank → Alike depth (call α p) (read grammar α p)
  deeper : depth < maxNesting → ∀ {α : Type} (p : Procedure α), Alike (depth + 1) (call α p) (read grammar α p)

/-- Behind one call more the procedures do what they do in the grammar if the ones they call did: those of lower ranks,
and one level deeper all of them. -/
theorem alike_oneMore {α : Type} (p : Procedure α)
    (hdeeper : depth < maxNesting → ∀ {β : Type} (q : Procedure β), Alike (depth + 1) (call β q) (read grammar β q))
    (hlower : AlikeBelow depth p.rank call (read grammar)) :
    Alike depth (call.oneMore α p) (read grammar α p) := by
  rcases Nat.eq_zero_or_pos p.rank with hp | hp
  · obtain ⟨q, hbody, -⟩ := exists_nested p hp
    rw [← body_grammar p, oneMore, hbody, hbody]
    exact .nested (fun h => (hdeeper h q).same) (onward_read (allMove_rulesAt _) q)
  · rw [← body_grammar p]
    exact alike_body p hp hlower

theorem Settled.next (h : Settled depth rank call) : Settled depth (rank + 1) call.oneMore where
  lower p hp := alike_oneMore p h.deeper fun q hq => h.lower q (by omega)
  deeper hdepth _ p :=
    alike_oneMore p (fun _ _ q => (h.deeper hdepth q).mono (Nat.le_succ _)) fun q _ => h.deeper hdepth q

theorem Settled.steps (h : Settled depth 0 call) (n : Nat) : Settled depth n (oneMore^[n] call) := by
  induction n with
  | zero => exact h
  | succ n ih =>
    rw [Function.iterate_succ_apply']
    exact ih.next

/-- Below the deepest level nothing is called, so the calls of the ranks at each level are all there are. -/
theorem settled_iterate (bottom : Calls) {levels : Nat} (h : levels ≤ maxNesting) :
    Settled (maxNesting - levels) 17 (oneMore^[17 * (levels + 1)] bottom) := by
  induction levels with
  | zero =>
    -- nothing is known of the bottom, and what is nested complains before it gets there
    have hbottom : Settled maxNesting 0 bottom :=
      ⟨fun _ hp => absurd hp (Nat.not_lt_zero _), fun hdepth => absurd hdepth (Nat.lt_irrefl _)⟩
    exact hbottom.steps 17
  | succ levels ih =>
    have hdepth : maxNesting - (levels + 1) + 1 = maxNesting - levels := by omega
    have hdeeper := ih (Nat.le_of_succ_le h)
    rw [← hdepth] at hdeeper
    have hnext : Settled (maxNesting - (levels + 1)) 0 (oneMore^[17 * (levels + 1)] bottom) :=
      ⟨fun _ hp => absurd hp (Nat.not_lt_zero _), fun _ _ p => hdeeper.lower p p.rank_lt⟩
    have hsteps := hnext.steps 17
    rwa [← Function.iterate_add_apply, Nat.add_comm 17, ← Nat.mul_succ] at hsteps

/-- Whatever stands behind so many open calls is never asked for. -/
theorem iterate_oneMore_eq (bottom : Calls) {n : Nat} (hn : 17 * (maxNesting + 1) ≤ n) {α : Type} (p : Procedure α) :
    (oneMore^[n] bottom) α p = read grammar α p := by
  obtain ⟨more, rfl⟩ := Nat.exists_eq_add_of_le hn
  have hsettled := settled_iterate (oneMore^[more] bottom) (Nat.le_refl maxNesting)
  rw [Nat.sub_self, ← Function.iterate_add_apply] at hsettled
  exact (hsettled.lower p p.rank_lt).eq

end Calls

end SequenceNotation.Script
