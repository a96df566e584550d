import SequenceNotation.Proofs.Script.GrammarCompleteness
import SequenceNotation.Proofs.Script.Lookahead
import SequenceNotation.Proofs.Script.NestingCap

/-!
# Trees as high as nesting allows

Parentheses give back the levels that were used inside them, so the heights of trees add up.  An expression
in parentheses, a `**` behind it and then a `*` for each level that is left make a tree that is higher by that
many nodes and one.  Such expressions, with a function in the innermost parentheses, reach every height that
the rules allow, far above the number of levels.
-/

namespace SequenceNotation.Script

open Parse

/-! ### What is read in front of a mark -/

/-- The next token, if there is one, is one of the marks. -/
def StopsAt (marks : List Mark) (tokens : List PlacedToken) : Prop :=
  ∀ token ∈ (bare tokens).head?, ∃ mark ∈ marks, token = .mark mark

namespace StopsAt

variable {marks : List Mark} {tokens : List PlacedToken} (h : StopsAt marks tokens)

theorem nil : StopsAt marks [] :=
  fun token htoken => absurd htoken (Option.not_mem_none token)

theorem cons {mark : Mark} (hmark : mark ∈ marks) {place : PlacedToken} (hplace : place.token = .mark mark)
    (rest : List PlacedToken) : StopsAt marks (place :: rest) := by
  rintro token ⟨⟩
  exact ⟨mark, hmark, hplace⟩

include h

theorem mono {more : List Mark} (hmarks : marks ⊆ more) : StopsAt more tokens := by
  intro token htoken
  obtain ⟨mark, hmark, rfl⟩ := h token htoken
  exact ⟨mark, hmarks hmark, rfl⟩

theorem head?_ne {token : Token} (htoken : ∀ mark ∈ marks, token ≠ .mark mark) :
    (bare tokens).head? ≠ some token := by
  intro hnext
  obtain ⟨mark, hmark, hmarked⟩ := h token hnext
  exact htoken mark hmark hmarked

theorem run_eat {token : Token} (htoken : ∀ mark ∈ marks, token ≠ .mark mark) (depth : Nat) :
    (eat token).run ⟨depth, tokens⟩ = .ok (false, ⟨depth, tokens⟩) := by
  rw [Parse.run_eat, if_neg (h.head?_ne htoken)]

theorem joinerOf?_eq_none {level : List Joiner} (hlevel : ∀ mark ∈ marks, level.lookup mark = none) :
    joinerOf? level (bare tokens).head? = none := by
  cases hnext : (bare tokens).head? with
  | none => rfl
  | some token =>
    obtain ⟨mark, hmark, rfl⟩ := h token hnext
    exact hlevel mark hmark

omit h in
theorem assignmentOperator?_eq_none (h : StopsAt [.closeParen] tokens) :
    Rules.assignmentOperator? (bare tokens).head? = none := by
  cases hnext : (bare tokens).head? with
  | none => rfl
  | some token =>
    obtain ⟨mark, hmark, rfl⟩ := h token hnext
    obtain rfl := List.mem_singleton.1 hmark
    rfl

end StopsAt

section

variable {rules : Rules} {depth : Nat} {tokens rest : List PlacedToken} {tree : Expression}

/-- No suffix begins in front of the end or of an operator. -/
theorem run_suffixes (hstop : StopsAt [.closeParen, .star, .power] rest) (rounds : Nat) :
    (rules.suffixes (rounds + 1) tree).run ⟨depth, rest⟩ = .ok (tree, ⟨depth, rest⟩) := by
  unfold Rules.suffixes
  rw [run_bind, run_peek]
  dsimp only
  split
  · rename_i hnext
    exact absurd hnext (hstop.head?_ne (by decide))
  · rename_i hnext
    exact absurd hnext (hstop.head?_ne (by decide))
  · rename_i hnext
    exact absurd hnext (hstop.head?_ne (by decide))
  · rename_i hnext
    exact absurd hnext (hstop.head?_ne (by decide))
  · rfl

/-- A primary in front of an operator or the end is an operand. -/
theorem run_unary {first : PlacedToken}
    (hfirst : first.token = .identifier "x" ∨ first.token = .mark .openParen ∨ first.token = .keyword .functionWord)
    (hprimary : rules.primary.run ⟨depth, first :: tokens⟩ = .ok (tree, ⟨depth, rest⟩))
    (hstop : StopsAt [.closeParen, .star, .power] rest) :
    rules.unary.run ⟨depth, first :: tokens⟩ = .ok (tree, ⟨depth, rest⟩) := by
  have hsuffixed : (rules.primary >>= fun expression => do rules.suffixes (← rounds) expression).run
      ⟨depth, first :: tokens⟩ = .ok (tree, ⟨depth, rest⟩) := by
    rw [run_bind_ok hprimary]
    exact run_suffixes hstop rest.length
  unfold Rules.unary
  rw [run_peek_cons]
  rcases hfirst with hfirst | hfirst | hfirst <;> rw [hfirst] <;> exact hsuffixed

theorem run_primary_name {place : PlacedToken} (h : place.token = .identifier "x") :
    rules.primary.run ⟨depth, place :: rest⟩ = .ok (.name "x", ⟨depth, rest⟩) := by
  unfold Rules.primary
  rw [run_peek_cons, h]
  rfl

theorem run_exponent (hunary : rules.unary.run ⟨depth, tokens⟩ = .ok (tree, ⟨depth, rest⟩))
    (hstop : StopsAt [.closeParen, .star] rest) :
    rules.exponent.run ⟨depth, tokens⟩ = .ok (tree, ⟨depth, rest⟩) := by
  unfold Rules.exponent
  rw [run_bind_ok hunary, run_bind_ok (hstop.run_eat (by decide) depth)]
  rfl

theorem run_exponent_name {place : PlacedToken} (h : place.token = .identifier "x")
    (hstop : StopsAt [.closeParen, .star] rest) :
    rules.exponent.run ⟨depth, place :: rest⟩ = .ok (.name "x", ⟨depth, rest⟩) :=
  run_exponent (run_unary (.inl h) (run_primary_name h) (hstop.mono (by decide))) hstop

theorem run_functionRest {opening closing brace : PlacedToken} (hopening : opening.token = .mark .openParen)
    (hclosing : closing.token = .mark .closeParen) (hbrace : brace.token = .mark .openBrace)
    {statements : List Statement} (hblock : rules.block.run ⟨depth, tokens⟩ = .ok (statements, ⟨depth, rest⟩)) :
    rules.functionRest.run ⟨depth, opening :: closing :: brace :: tokens⟩ =
      .ok (.function [] (.block statements), ⟨depth, rest⟩) := by
  have hparameters : parameterList.run ⟨depth, closing :: brace :: tokens⟩ = .ok ([], ⟨depth, brace :: tokens⟩) := by
    unfold parameterList
    rw [run_bind_ok (run_eat_next hclosing)]
    rfl
  unfold Rules.functionRest
  rw [run_bind_ok (run_expect_next hopening), run_bind_ok hparameters, run_bind_ok (run_expect_next hbrace),
    run_bind_ok hblock]
  rfl

theorem run_blockRest_end {brace : PlacedToken} (hbrace : brace.token = .mark .closeBrace) (rounds : Nat) :
    (rules.blockRest (rounds + 1)).run ⟨depth, brace :: rest⟩ = .ok ([], ⟨depth, rest⟩) := by
  unfold Rules.blockRest
  rw [run_peek_cons, hbrace]
  rfl

theorem run_block_function {word brace : PlacedToken} (hword : word.token = .keyword .functionWord)
    {statement : Statement}
    (hstatement : rules.statement.run ⟨depth, word :: tokens⟩ = .ok (statement, ⟨depth, brace :: rest⟩))
    (hbrace : brace.token = .mark .closeBrace) :
    rules.block.run ⟨depth, word :: tokens⟩ = .ok ([statement], ⟨depth, rest⟩) := by
  show (rules.blockRest (tokens.length + 1 + 1)).run _ = _
  unfold Rules.blockRest
  rw [run_peek_cons, hword]
  dsimp only
  rw [run_bind_ok hstatement, run_bind_ok (run_blockRest_end hbrace _)]
  rfl

theorem run_terminated_function {word place brace : PlacedToken} (hword : word.token = .keyword .functionWord)
    {name : String} (hname : place.token = .identifier name)
    (hfunction : rules.functionRest.run ⟨depth, tokens⟩ = .ok (tree, ⟨depth, brace :: rest⟩))
    (hbrace : brace.token = .mark .closeBrace) :
    rules.terminated.run ⟨depth, word :: place :: tokens⟩ =
      .ok (.declare [(name, some tree)], ⟨depth, brace :: rest⟩) := by
  have hstatement : rules.bareStatement.run ⟨depth, word :: place :: tokens⟩ =
      .ok (.declare [(name, some tree)], ⟨depth, brace :: rest⟩) := by
    unfold Rules.bareStatement
    rw [run_peek_cons, hword]
    dsimp only
    rw [run_look_cons, hname]
    dsimp only
    rw [run_bind_ok (run_advance ..), run_bind_ok (run_advance ..), run_bind_ok hfunction]
    rfl
  have hother : (bare (brace :: rest)).head? ≠ some (.mark .semicolon) := by
    rw [bare, List.map_cons, List.head?_cons, hbrace]
    decide
  have hsemicolon : (discard (eat (.mark .semicolon))).run ⟨depth, brace :: rest⟩ = .ok ((), ⟨depth, brace :: rest⟩) := by
    show ((eat (.mark .semicolon)).run _ >>= fun p => pure ((), p.2)) = _
    rw [run_eat, if_neg hother]
    rfl
  unfold Rules.terminated
  rw [run_bind_ok hstatement, run_bind_ok hsemicolon]
  rfl

/-- Where the expression ends no operator follows. -/
theorem run_chain_stop {level : List Joiner} (hlevel : level.lookup .closeParen = none)
    (hstop : StopsAt [.closeParen] rest) (operand : Parse Expression) (rounds : Nat) :
    (Rules.chain level operand (rounds + 1) tree).run ⟨depth, rest⟩ = .ok (tree, ⟨depth, rest⟩) := by
  have hnone : joinerOf? level (bare rest).head? = none := hstop.joinerOf?_eq_none (by simpa using hlevel)
  unfold Rules.chain
  rw [run_bind, run_peek]
  dsimp only
  rw [hnone]
  rfl

/-- What is read with the tightest operators only is read with all of them, where the expression ends. -/
theorem run_operators {level : List Joiner} {levels : List (List Joiner)}
    (hlevels : ∀ level ∈ levels, (level.lookup .closeParen).isNone) {s : ParseState}
    (h : (rules.operators [level]).run s = .ok (tree, ⟨depth, rest⟩)) (hstop : StopsAt [.closeParen] rest) :
    (rules.operators (levels ++ [level])).run s = .ok (tree, ⟨depth, rest⟩) := by
  induction levels with
  | nil => exact h
  | cons looser levels ih =>
    obtain ⟨hlooser, hlevels⟩ := List.forall_mem_cons.1 hlevels
    show (rules.operators (levels ++ [level]) >>= fun left => do
      Rules.chain looser (rules.operators (levels ++ [level])) (← rounds) left).run s = _
    rw [run_bind_ok (ih hlevels)]
    exact run_chain_stop (Option.isNone_iff_eq_none.1 hlooser) hstop _ rest.length

end

/-! ### Chains of products -/

/-- The operators of products. -/
def products : List Joiner :=
  [(.star, .binary .multiply), (.slash, .binary .divide), (.percent, .binary .remainder)]

/-- What is read up to the end as a product is an expression. -/
theorem run_expression {rules : Rules} {depth depth' : Nat} {tokens rest : List PlacedToken} {tree : Expression}
    (harrow : ∀ place ∈ tokens, place.token ≠ .mark .arrow)
    (h : (rules.operators [products]).run ⟨depth, tokens⟩ = .ok (tree, ⟨depth', rest⟩))
    (hstop : StopsAt [.closeParen] rest) :
    rules.expression.run ⟨depth, tokens⟩ = .ok (tree, ⟨depth', rest⟩) := by
  have hlevels : operatorLevels = operatorLevels.dropLast ++ [products] := rfl
  have hconditional : rules.conditional.run ⟨depth, tokens⟩ = .ok (tree, ⟨depth', rest⟩) := by
    unfold Rules.conditional
    rw [hlevels, run_bind_ok (run_operators (by decide) h hstop), run_bind_ok (hstop.run_eat (by decide) _)]
    rfl
  unfold Rules.expression
  rw [run_bind_ok (run_arrowFunction _ harrow depth), run_bind_ok hconditional, run_bind, run_peek]
  dsimp only
  rw [hstop.assignmentOperator?_eq_none]
  rfl

/-- So many factors behind an operand. -/
def factors : (count : Nat) → List Token
  | 0 => []
  | count + 1 => .mark .star :: .identifier "x" :: factors count

theorem length_factors (count : Nat) : (factors count).length = 2 * count := by
  induction count with
  | zero => rfl
  | succ count ih =>
    rw [factors, List.length_cons, List.length_cons, ih]
    omega

/-- The product of a tree and so many factors. -/
def multiplied : (count : Nat) → Expression → Expression
  | 0, tree => tree
  | count + 1, tree => multiplied count (.binary .multiply tree (.name "x"))

theorem height_multiplied (count : Nat) (tree : Expression) : (multiplied count tree).height = tree.height + count := by
  induction count generalizing tree with
  | zero => rfl
  | succ count ih =>
    have hpos := tree.height_pos
    have hproduct : (Expression.binary .multiply tree (.name "x")).height = max tree.height 1 + 1 := rfl
    rw [multiplied, ih, hproduct]
    omega

/-- Factors begin with an operator, if there are any. -/
theorem StopsAt.factors {placed rest : List PlacedToken} (h : StopsAt [.closeParen] rest) {count : Nat}
    (hplaced : bare placed = factors count) : StopsAt [.closeParen, .star] (placed ++ rest) := by
  cases count with
  | zero =>
    obtain rfl := List.map_eq_nil_iff.1 hplaced
    exact h.mono (by decide)
  | succ count =>
    obtain ⟨star, more, rfl, hstar, -⟩ := List.map_eq_cons_iff.1 hplaced
    exact .cons (by decide) hstar _

/-- Every factor uses up a level. -/
theorem run_chain {rules : Rules} {level : List Joiner} (hlevel : level.lookup .star = some (.binary .multiply))
    (hclose : level.lookup .closeParen = none) {count rounds depth : Nat} (hrounds : count < rounds)
    (hdepth : depth + count ≤ maxNesting) {placed rest : List PlacedToken} (hplaced : bare placed = factors count)
    (hstop : StopsAt [.closeParen] rest) (tree : Expression) :
    (Rules.chain level rules.exponent rounds tree).run ⟨depth, placed ++ rest⟩ =
      .ok (multiplied count tree, ⟨depth + count, rest⟩) := by
  induction count generalizing rounds depth placed tree with
  | zero =>
    obtain ⟨rounds, rfl⟩ := Nat.exists_eq_succ_of_ne_zero (Nat.ne_of_gt hrounds)
    obtain rfl := List.map_eq_nil_iff.1 hplaced
    exact run_chain_stop hclose hstop _ rounds
  | succ count ih =>
    obtain ⟨rounds, rfl⟩ := Nat.exists_eq_succ_of_ne_zero (Nat.ne_of_gt (Nat.zero_lt_of_lt hrounds))
    obtain ⟨star, placed', rfl, hstar, hplaced'⟩ := List.map_eq_cons_iff.1 hplaced
    obtain ⟨name, placed, rfl, hname, hplaced⟩ := List.map_eq_cons_iff.1 hplaced'
    have hjoin : joinerOf? level (some star.token) = some (.binary .multiply) := by
      rw [hstar]
      exact hlevel
    unfold Rules.chain
    rw [List.cons_append, run_peek_cons, hjoin]
    show (descend >>= fun _ => rules.exponent >>= fun right =>
      Rules.chain level rules.exponent rounds (.binary .multiply tree right)).run
        ⟨depth, name :: placed ++ rest⟩ = _
    -- the level for the factor is still there, and is not given back behind it
    rw [run_bind, run_descend, if_neg (by simp only; omega)]
    dsimp only
    rw [List.cons_append, run_bind_ok (run_exponent_name hname (hstop.factors hplaced)),
      ih (by omega) (by omega) hplaced, Nat.add_right_comm]
    rfl

/-! ### Operands and expressions -/

/-- The tokens of the expressions below. -/
def buildingTokens : List Token :=
  [.identifier "x", .mark .openParen, .mark .closeParen, .mark .openBrace, .mark .closeBrace, .mark .power,
    .mark .star, .keyword .functionWord]

theorem factors_subset (count : Nat) : factors count ⊆ buildingTokens := by
  induction count with
  | zero => exact List.nil_subset _
  | succ count ih => exact List.cons_subset.2 ⟨by decide, List.cons_subset.2 ⟨by decide, ih⟩⟩

theorem no_arrow_of_subset {tokens : List PlacedToken} (h : bare tokens ⊆ buildingTokens) :
    ∀ place ∈ tokens, place.token ≠ .mark .arrow := by
  intro place hplace harrow
  have hmem := h (List.mem_map_of_mem hplace)
  rw [harrow] at hmem
  exact absurd hmem (by decide)

theorem bare_cons_subset {place : PlacedToken} {token : Token} (hplace : place.token = token)
    (htoken : token ∈ buildingTokens) {rest : List PlacedToken} (hrest : bare rest ⊆ buildingTokens) :
    bare (place :: rest) ⊆ buildingTokens := by
  subst hplace
  exact List.cons_subset.2 ⟨htoken, hrest⟩

/-- Wherever so many levels are left, the rule reads the tokens as the tree in front of the given marks and of the
end, and uses up some of the levels. -/
structure Accepts (rule : Rules → Parse Expression) (marks : List Mark) (levels used : Nat) (tokens : List Token)
    (tree : Expression) : Prop where
  built : tokens ⊆ buildingTokens
  run {index depth : Nat} {placed rest : List PlacedToken} (hindex : levels ≤ index)
    (hdepth : depth + levels = maxNesting) (hplaced : bare placed = tokens) (hrest : bare rest ⊆ buildingTokens)
    (hstop : StopsAt marks rest) :
    (rule (rulesAt (index + 1))).run ⟨depth, placed ++ rest⟩ = .ok (tree, ⟨depth + used, rest⟩)

/-- What stands in front of `**` and of the tightest operators. -/
abbrev AcceptsOperand := Accepts Rules.unary [.closeParen, .star, .power]

/-- An operand with its exponent, if it has one. -/
abbrev AcceptsPower := Accepts Rules.exponent [.closeParen, .star]

abbrev AcceptsExpression := Accepts Rules.expression [.closeParen]

section

variable {levels used : Nat} {tokens : List Token} {tree : Expression}

theorem acceptsOperand_name (levels : Nat) : AcceptsOperand levels 0 [.identifier "x"] (.name "x") where
  built := by decide
  run {index depth placed rest} _ _ hplaced _ hstop := by
    obtain ⟨name, more, rfl, hname, hmore⟩ := List.map_eq_cons_iff.1 hplaced
    obtain rfl := List.map_eq_nil_iff.1 hmore
    exact run_unary (.inl hname) (run_primary_name hname) hstop

/-- Parentheses give the levels back. -/
theorem AcceptsExpression.parentheses (h : AcceptsExpression levels used tokens tree) :
    AcceptsOperand (levels + 1) 0 (.mark .openParen :: (tokens ++ [.mark .closeParen])) tree where
  built := List.cons_subset.2 ⟨by decide, List.append_subset.2 ⟨h.built, by decide⟩⟩
  run {index depth placed rest} hindex hdepth hplaced hrest hstop := by
    obtain ⟨opening, behind, rfl, hopening, hbehind⟩ := List.map_eq_cons_iff.1 hplaced
    obtain ⟨inner, last, rfl, hinner, hlast⟩ := List.map_eq_append_iff.1 hbehind
    obtain ⟨closing, more, rfl, hclosing, hmore⟩ := List.map_eq_cons_iff.1 hlast
    obtain rfl := List.map_eq_nil_iff.1 hmore
    obtain ⟨index, rfl⟩ := Nat.exists_eq_succ_of_ne_zero (Nat.ne_of_gt (Nat.zero_lt_of_lt hindex))
    have hclosed := bare_cons_subset hclosing (by decide) hrest
    -- The inner expression runs one level below, and the level is given back behind it.
    have hassignment : (rulesAt (index + 2)).assignment.run ⟨depth, inner ++ closing :: rest⟩ =
        .ok (tree, ⟨depth, closing :: rest⟩) := by
      refine run_nested_ok (by omega) (h.run (by omega) (by omega) hinner hclosed ?_)
      exact .cons (List.mem_singleton.2 rfl) hclosing rest
    have hprimary : (rulesAt (index + 2)).primary.run ⟨depth, opening :: (inner ++ closing :: rest)⟩ =
        .ok (tree, ⟨depth, rest⟩) := by
      unfold Rules.primary
      rw [run_peek_cons, hopening]
      show ((rulesAt (index + 2)).assignment >>= fun inner => expect (.mark .closeParen) >>= fun _ => pure inner).run
        ⟨depth, inner ++ closing :: rest⟩ = _
      rw [run_bind_ok hassignment, run_bind_ok (run_expect_next hclosing)]
      rfl
    rw [List.cons_append, List.append_assoc]
    exact run_unary (.inr (.inl hopening)) hprimary hstop

theorem AcceptsOperand.power (h : AcceptsOperand levels 0 tokens tree) : AcceptsPower levels 0 tokens tree where
  built := h.built
  run hindex hdepth hplaced hrest hstop :=
    run_exponent (h.run hindex hdepth hplaced hrest (hstop.mono (by decide))) hstop

/-- A `**` adds a node and gives the level that it takes back. -/
theorem AcceptsOperand.raised (h : AcceptsOperand (levels + 1) 0 tokens tree) :
    AcceptsPower (levels + 1) 0 (tokens ++ [.mark .power, .identifier "x"]) (.binary .power tree (.name "x")) where
  built := List.append_subset.2 ⟨h.built, by decide⟩
  run {index depth placed rest} hindex hdepth hplaced hrest hstop := by
    obtain ⟨base, behind, rfl, hbase, hbehind⟩ := List.map_eq_append_iff.1 hplaced
    obtain ⟨power, behind', rfl, hpower, hbehind'⟩ := List.map_eq_cons_iff.1 hbehind
    obtain ⟨name, more, rfl, hname, hmore⟩ := List.map_eq_cons_iff.1 hbehind'
    obtain rfl := List.map_eq_nil_iff.1 hmore
    have hraised := bare_cons_subset hpower (by decide) (bare_cons_subset hname (by decide) hrest)
    have hunary : (rulesAt (index + 1)).unary.run ⟨depth, base ++ power :: name :: rest⟩ =
        .ok (tree, ⟨depth, power :: name :: rest⟩) :=
      h.run hindex hdepth hbase hraised (.cons (by decide) hpower _)
    have hexponent : (rulesAt (index + 1)).power.run ⟨depth, name :: rest⟩ = .ok (.name "x", ⟨depth, rest⟩) :=
      run_nested_ok (by omega) (run_exponent_name hname hstop)
    rw [List.append_assoc]
    unfold Rules.exponent
    rw [List.cons_append, List.singleton_append, run_bind_ok hunary,
      run_bind_ok (run_eat_next hpower), if_pos rfl, run_bind_ok hexponent]
    rfl

/-- Factors behind an operand, at most one for each level. -/
theorem AcceptsPower.times (h : AcceptsPower levels 0 tokens tree) {count : Nat} (hcount : count ≤ levels) :
    AcceptsExpression levels count (tokens ++ factors count) (multiplied count tree) where
  built := List.append_subset.2 ⟨h.built, factors_subset count⟩
  run {index depth placed rest} hindex hdepth hplaced hrest hstop := by
    obtain ⟨operand, more, rfl, hoperand, hmore⟩ := List.map_eq_append_iff.1 hplaced
    have hbehind : bare (more ++ rest) ⊆ buildingTokens := by
      rw [bare, List.map_append, hmore]
      exact List.append_subset.2 ⟨factors_subset count, hrest⟩
    have hexponent := h.run hindex hdepth hoperand hbehind (hstop.factors hmore)
    have hproduct : ((rulesAt (index + 1)).operators [products]).run ⟨depth, operand ++ (more ++ rest)⟩ =
        .ok (multiplied count tree, ⟨depth + count, rest⟩) := by
      have hrounds : count < (more ++ rest).length + 1 := by
        have hlength := length_factors count
        rw [← hmore, List.length_map] at hlength
        rw [List.length_append]
        omega
      show ((rulesAt (index + 1)).exponent >>= fun left => do
        Rules.chain products (rulesAt (index + 1)).exponent (← rounds) left).run _ = _
      rw [run_bind_ok hexponent]
      exact run_chain rfl rfl hrounds (by omega) hmore hstop tree
    have harrow : ∀ place ∈ operand ++ (more ++ rest), place.token ≠ .mark .arrow := by
      refine no_arrow_of_subset ?_
      rw [bare, List.map_append, hoperand]
      exact List.append_subset.2 ⟨h.built, hbehind⟩
    rw [List.append_assoc]
    exact run_expression harrow hproduct hstop

/-- The tokens of `function() { function x() {} }`. -/
def nestedFunction : List Token :=
  [.keyword .functionWord, .mark .openParen, .mark .closeParen, .mark .openBrace,
    .keyword .functionWord, .identifier "x", .mark .openParen, .mark .closeParen, .mark .openBrace,
    .mark .closeBrace, .mark .closeBrace]

def nestedFunctionTree : Expression :=
  .function [] (.block [.declare [("x", some (.function [] (.block [])))]])

/-- A statement takes a level, and is a node above the function that it declares. -/
theorem acceptsOperand_nestedFunction (levels : Nat) :
    AcceptsOperand (levels + 1) 0 nestedFunction nestedFunctionTree where
  built := by decide
  run {index depth placed rest} hindex hdepth hplaced hrest hstop := by
    simp only [bare, nestedFunction, List.map_eq_cons_iff, List.map_eq_nil_iff] at hplaced
    obtain ⟨word, _, rfl, hword, opening, _, rfl, hopening, closing, _, rfl, hclosing, brace, _, rfl, hbrace,
      word', _, rfl, hword', name, _, rfl, hname, opening', _, rfl, hopening', closing', _, rfl, hclosing',
      brace', _, rfl, hbrace', last', _, rfl, hlast', last, _, rfl, hlast, rfl⟩ := hplaced
    have hinner : (rulesAt index).functionRest.run ⟨depth + 1, opening' :: closing' :: brace' :: last' :: last :: rest⟩ =
        .ok (.function [] (.block []), ⟨depth + 1, last :: rest⟩) :=
      run_functionRest hopening' hclosing' hbrace' (run_blockRest_end hlast' _)
    have hstatement : (rulesAt (index + 1)).statement.run
        ⟨depth, word' :: name :: opening' :: closing' :: brace' :: last' :: last :: rest⟩ = .ok (_, ⟨depth, last :: rest⟩) :=
      run_nested_ok (by omega) (run_terminated_function hword' hname hinner hlast)
    have hprimary : (rulesAt (index + 1)).primary.run ⟨depth, word :: opening :: closing :: brace :: word' :: name ::
        opening' :: closing' :: brace' :: last' :: last :: rest⟩ = .ok (nestedFunctionTree, ⟨depth, rest⟩) := by
      unfold Rules.primary
      rw [run_peek_cons, hword]
      dsimp only
      rw [run_bind_ok (run_advance ..), run_peek_cons, hopening]
      exact run_functionRest hopening hclosing hbrace (run_block_function hword' hstatement hlast)
    exact run_unary (.inr (.inr hword)) hprimary hstop

end

/-- More nodes on top of an operand: at most one for `**`, and one for each level. -/
theorem AcceptsOperand.exists_higher {levels : Nat} {tokens : List Token} {tree : Expression}
    (h : AcceptsOperand (levels + 1) 0 tokens tree) {more : Nat} (hmore : more ≤ levels + 2) :
    ∃ used tokens' tree', AcceptsExpression (levels + 1) used tokens' tree' ∧ tree'.height = tree.height + more := by
  cases more with
  | zero => exact ⟨_, _, _, h.power.times (Nat.zero_le _), height_multiplied 0 tree⟩
  | succ count =>
    refine ⟨_, _, _, h.raised.times (Nat.le_of_succ_le_succ hmore), ?_⟩
    have hpos := tree.height_pos
    have hraised : (Expression.binary .power tree (.name "x")).height = max tree.height 1 + 1 := rfl
    rw [height_multiplied, hraised]
    omega

/-- With at least one level left every height is read up to the cap of one level more. -/
theorem exists_acceptsExpression (levels : Nat) {height : Nat} (hpos : 0 < height)
    (hheight : height ≤ heightCap (levels + 2)) :
    ∃ used tokens tree, AcceptsExpression (levels + 1) used tokens tree ∧ tree.height = height := by
  induction levels generalizing height with
  | zero =>
    have hcap : heightCap (0 + 2) = 5 := rfl
    by_cases hsmall : height ≤ 3
    · obtain ⟨used, tokens, tree, htree, hhigher⟩ :=
        (acceptsOperand_name 1).exists_higher (Nat.sub_le_of_le_add hsmall : height - 1 ≤ 2)
      have hname : (Expression.name "x").height = 1 := rfl
      exact ⟨used, tokens, tree, htree, by omega⟩
    · obtain ⟨used, tokens, tree, htree, hhigher⟩ :=
        (acceptsOperand_nestedFunction 0).exists_higher (by omega : height - 3 ≤ 2)
      have hfunction : nestedFunctionTree.height = 3 := rfl
      exact ⟨used, tokens, tree, htree, by omega⟩
  | succ levels ih =>
    have hcap : heightCap (levels + 1 + 2) = heightCap (levels + 2) + max 2 (levels + 3) := rfl
    have hinner := heightCap_pos (levels + 2)
    -- as many nodes as one level less allows are in the parentheses, the others on top of them
    obtain ⟨used, tokens, tree, htree, hrest⟩ : ∃ used tokens tree, AcceptsExpression (levels + 1) used tokens tree ∧
        tree.height = min height (heightCap (levels + 2)) :=
      ih (by omega) (Nat.min_le_right _ _)
    obtain ⟨used', tokens', tree', htree', hhigher⟩ :=
      htree.parentheses.exists_higher (by omega : height - min height (heightCap (levels + 2)) ≤ levels + 3)
    exact ⟨used', tokens', tree', htree', by omega⟩

/-! ### Sources -/

theorem exists_text {token : Token} (h : token ∈ buildingTokens) :
    ∃ text, ∀ rest, tokensIn (text ++ rest) = (tokensIn rest).map (token :: ·) := by
  have hname (c : Char) (name : List Char) (hc : isNameStart c = true) (hrest : ∀ d ∈ name, isNamePart d = true)
      (htoken : nameToken (String.ofList (c :: name)) = token) :
      ∃ text, ∀ rest, tokensIn (text ++ rest) = (tokensIn rest).map (token :: ·) := by
    refine ⟨c :: name ++ [' '], fun rest => ?_⟩
    rw [List.append_assoc, List.singleton_append, tokensIn_name hc hrest (by rintro d ⟨⟩; rfl), htoken, tokensIn_blank]
  simp only [buildingTokens, List.mem_cons, List.not_mem_nil, or_false] at h
  rcases h with rfl | rfl | rfl | rfl | rfl | rfl | rfl | rfl
  · exact hname 'x' [] rfl (List.forall_mem_nil _) (by decide)
  · exact ⟨['(', ' '], fun rest => tokensIn_mark (by decide) (by decide) [] rest rfl⟩
  · exact ⟨[')', ' '], fun rest => tokensIn_mark (by decide) (by decide) [] rest rfl⟩
  · exact ⟨['{', ' '], fun rest => tokensIn_mark (by decide) (by decide) [] rest rfl⟩
  · exact ⟨['}', ' '], fun rest => tokensIn_mark (by decide) (by decide) [] rest rfl⟩
  · exact ⟨['*', '*', ' '], fun rest => tokensIn_mark (by decide) (by decide) ['*'] rest rfl⟩
  · exact ⟨['*', ' '], fun rest => tokensIn_mark (by decide) (by decide) [] rest rfl⟩
  · exact hname 'f' ['u', 'n', 'c', 't', 'i', 'o', 'n'] rfl (Text.forall_of_all (by decide)) (by decide)

theorem exists_source {tokens : List Token} (h : tokens ⊆ buildingTokens) :
    ∃ source placed, tokenize source = .ok placed ∧ bare placed = tokens := by
  have htext : ∃ text, tokensIn text = some tokens := by
    induction tokens with
    | nil => exact ⟨[], tokensIn_nil⟩
    | cons token tokens ih =>
      obtain ⟨htoken, htokens⟩ := List.cons_subset.1 h
      obtain ⟨front, hfront⟩ := exists_text htoken
      obtain ⟨text, htext⟩ := ih htokens
      exact ⟨front ++ text, by rw [hfront, htext]; rfl⟩
  obtain ⟨text, htext⟩ := htext
  have hsource : tokensOf (String.ofList text) = some tokens := by
    rw [← htext]
    show tokensIn (String.ofList text).toList = tokensIn text
    rw [String.toList_ofList]
  exact ⟨String.ofList text, exists_tokenize hsource⟩

/-- An expression of a source has all the levels but one. -/
theorem AcceptsExpression.exists_parseExpression {used : Nat} {tokens : List Token} {tree : Expression}
    (h : AcceptsExpression 99 used tokens tree) : ∃ source, parseExpression source = .ok tree := by
  obtain ⟨source, placed, hsource, hplaced⟩ := exists_source h.built
  have hrun : grammar.assignment.run ⟨0, placed ++ []⟩ = .ok (tree, ⟨0, []⟩) :=
    run_nested_ok (by decide) (h.run (by decide) (by decide) hplaced (List.nil_subset _) .nil)
  rw [List.append_nil] at hrun
  refine ⟨source, ?_⟩
  rw [parseExpression_eq, hsource]
  exact parseTokens_eq_ok_iff.2 ⟨0, hrun⟩

theorem height_le_heightCap {source : String} {tree : Expression} (h : parseExpression source = .ok tree) :
    tree.height ≤ heightCap maxNesting := by
  obtain ⟨tokens, -, htokens⟩ := parseExpression_tokens h
  obtain ⟨depth, hrun⟩ := parseTokens_eq_ok_iff.1 htokens
  obtain ⟨left, -, -, -, htree⟩ := (capped_rulesAt (maxNesting + 1)).assignment maxNesting _ _ _ (Nat.zero_add _) hrun
  exact htree

/-- Expressions of all heights up to 5052 can be read, and none that are higher. -/
theorem exists_parseExpression_height_iff (height : Nat) :
    (∃ source tree, parseExpression source = .ok tree ∧ tree.height = height) ↔ 0 < height ∧ height ≤ 5052 := by
  have hcap : heightCap maxNesting = 5052 := rfl
  constructor
  · rintro ⟨source, tree, hparse, rfl⟩
    rw [← hcap]
    exact ⟨tree.height_pos, height_le_heightCap hparse⟩
  · rintro ⟨hpos, hheight⟩
    obtain ⟨used, tokens, tree, htree, hsame⟩ := exists_acceptsExpression 98 hpos hheight
    obtain ⟨source, hsource⟩ := htree.exists_parseExpression
    exact ⟨source, tree, hsource, hsame⟩

/-- A product of what all the levels were used for: they are given back in front of the operator. -/
theorem negations_above_maxNesting :
    (parseExpression (String.join (List.replicate 99 "!") ++ "x*x")).toOption.map Expression.height = some 101 ∧
      ¬∀ source tree, parseExpression source = .ok tree → tree.height ≤ maxNesting := by
  have hheight : (parseExpression (String.join (List.replicate 99 "!") ++ "x*x")).toOption.map Expression.height =
      some 101 := by decide +kernel
  refine ⟨hheight, fun hcap => ?_⟩
  obtain ⟨tree, hparse, htree⟩ := Option.map_eq_some_iff.1 hheight
  have hlow := hcap _ tree (toOption_eq_some_iff.1 hparse)
  rw [htree] at hlow
  exact absurd hlow (by decide)

end SequenceNotation.Script
