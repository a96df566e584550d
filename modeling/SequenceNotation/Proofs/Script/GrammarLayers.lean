import SequenceNotation.Proofs.Script.GrammarSoundness

/-!
# The layers as they are read

Which tokens continue an expression and which begin one, the rule that reads a layer, and what one round
of a rule does that is read in rounds: those of the left-associative operators, and the one of calls and
members.
-/

namespace SequenceNotation.Script

open Parse

/-! ### What continues an expression -/

/-- How tightly a layer binds.  A conditional expression ends with an assignment, so that what continues
the one continues the other. -/
def Layer.index : Layer → Nat
  | assignment | conditional => 1
  | nullish => 3
  | or => 4
  | and => 5
  | equality => 6
  | relational => 7
  | additive => 8
  | multiplicative => 9
  | power => 10
  | unary => 11
  | suffix => 12
  | primary => 13

/-- The index of the tightest layer that goes on with the mark behind an expression, zero if none does. -/
def Mark.reach : Mark → Nat
  | assign | plusAssign | minusAssign | starAssign | slashAssign => 1
  | question => 2
  | nullish => 3
  | or => 4
  | and => 5
  | equal | notEqual | strictEqual | strictNotEqual => 6
  | less | lessEqual | greater | greaterEqual => 7
  | plus | minus => 8
  | star | slash | percent => 9
  | power => 10
  | openParen | dot | increment | decrement => 12
  | _ => 0

/-- The reach of the first token. -/
def reach (tokens : List PlacedToken) : Nat :=
  match (bare tokens).head? with
  | some (.mark mark) => mark.reach
  | _ => 0

theorem reach_of_head? {tokens : List PlacedToken} {mark : Mark}
    (h : (bare tokens).head? = some (.mark mark)) : reach tokens = mark.reach := by
  unfold reach
  rw [h]

theorem head?_ne_of_reach {tokens : List PlacedToken} {mark : Mark} (h : reach tokens ≠ mark.reach) :
    (bare tokens).head? ≠ some (.mark mark) :=
  mt reach_of_head? h

theorem reach_le (tokens : List PlacedToken) : reach tokens ≤ 12 := by
  unfold reach
  split
  · rename_i mark _
    cases mark <;> decide
  · exact Nat.zero_le _

theorem reach_cons {place : PlacedToken} {mark : Mark} (h : place.token = .mark mark)
    (rest : List PlacedToken) : reach (place :: rest) = mark.reach :=
  reach_of_head? (by rw [bare, List.map_cons, List.head?_cons, h])

theorem Layer.index_le_of_tighter? {layer inner : Layer} (h : layer.tighter? = some inner) :
    layer.index ≤ inner.index := by
  cases layer <;> cases h <;> decide

theorem Layer.index_lt_of_tighter? {layer inner : Layer} (h : layer.tighter? = some inner)
    (hoperator : layer.isOperator = true) : layer.index < inner.index := by
  cases layer <;> cases hoperator <;> cases h <;> decide

theorem Layer.reach_of_join? {layer : Layer} {mark : Mark}
    {join : Expression → Expression → Expression} (h : layer.join? mark = some join) :
    mark.reach = layer.index := by
  cases layer <;> cases mark <;> first | rfl | cases h

theorem Assigns.reach {mark : Mark} {operator : Option BinaryOperator} (h : Assigns mark operator) :
    mark.reach = 1 := by
  cases h <;> rfl

/-! ### The rule of a layer -/

/-- The rule that reads a layer. -/
def Layer.read (layer : Layer) (rules : Rules) : Parse Expression :=
  match layer with
  | assignment => rules.expression
  | conditional => rules.conditional
  | unary => rules.unary
  | suffix => do
    let expression ← rules.primary
    rules.suffixes (← rounds) expression
  | primary => rules.primary
  | layer => rules.operators layer.levels

/-- The layers that are read in rounds. -/
def Layer.repeats (layer : Layer) : Bool :=
  layer.isOperator || layer = suffix

/-- The rounds of such a layer that are left behind an expression. -/
def Layer.resume (layer : Layer) (rules : Rules) (rounds : Nat) (expression : Expression) :
    Parse Expression :=
  match layer.levels with
  | [] => rules.suffixes rounds expression
  | level :: tighter => Rules.chain level (rules.operators tighter) rounds expression

theorem Layer.read_operator {layer : Layer} (h : layer.isOperator = true) (rules : Rules) :
    layer.read rules = rules.operators layer.levels := by
  cases layer <;> cases h <;> rfl

theorem Layer.read_inner {layer inner : Layer} (hlayer : layer.tighter? = some inner)
    (h : layer.isOperator = true) (rules : Rules) : inner.read rules = rules.operators inner.levels := by
  cases layer <;> cases h <;> cases hlayer <;> rfl

theorem Layer.exists_tighter {layer : Layer} (h : layer.isOperator = true) :
    ∃ inner, layer.tighter? = some inner := by
  cases layer <;> cases h <;> exact ⟨_, rfl⟩

/-! ### What an expression begins with -/

/-- A token that a primary begins with. -/
def StartsPrimary (token : Token) : Prop :=
  (∃ tree, Atom token tree) ∨ token = .mark .openParen

/-- A token that an expression begins with. -/
def StartsExpression (token : Token) : Prop :=
  StartsPrimary token ∨ (∃ operator, Prefixes token operator) ∨
    ∃ mark upwards, Counts mark upwards ∧ token = .mark mark

/-- What is derived begins with a token of its first primary, or with what stands in front of that; the
latter not on the layers of primaries and of what stands behind them. -/
theorem Derives.exists_cons {layer : Layer} {tokens : List Token} {tree : Expression}
    (h : Derives layer tokens tree) : ∃ first others, tokens = first :: others ∧
      StartsExpression first ∧ (12 ≤ layer.index → StartsPrimary first) := by
  induction h with
  | tighter hlayer _ ih =>
    obtain ⟨first, others, htokens, hfirst, hprimary⟩ := ih
    exact ⟨first, others, htokens, hfirst, fun hindex =>
      hprimary (Nat.le_trans hindex (Layer.index_le_of_tighter? hlayer))⟩
  | assign _ _ _ ih =>
    obtain ⟨first, others, rfl, hfirst, -⟩ := ih
    exact ⟨first, _, rfl, hfirst, fun hindex => absurd hindex (by decide)⟩
  | conditional _ _ _ ih =>
    obtain ⟨first, others, rfl, hfirst, -⟩ := ih
    exact ⟨first, _, rfl, hfirst, fun hindex => absurd hindex (by decide)⟩
  | join _ _ _ _ ih =>
    obtain ⟨first, others, rfl, hfirst, hprimary⟩ := ih
    exact ⟨first, _, rfl, hfirst, hprimary⟩
  | power _ _ ih =>
    obtain ⟨first, others, rfl, hfirst, -⟩ := ih
    exact ⟨first, _, rfl, hfirst, fun hindex => absurd hindex (by decide)⟩
  | prefixed htoken _ _ =>
    exact ⟨_, _, rfl, .inr (.inl ⟨_, htoken⟩), fun hindex => absurd hindex (by decide)⟩
  | countInFront hmark name =>
    exact ⟨_, _, rfl, .inr (.inr ⟨_, _, hmark, rfl⟩), fun hindex => absurd hindex (by decide)⟩
  | countBehind _ _ ih =>
    obtain ⟨first, others, rfl, hfirst, hprimary⟩ := ih
    exact ⟨first, _, rfl, hfirst, hprimary⟩
  | member _ _ ih =>
    obtain ⟨first, others, rfl, hfirst, hprimary⟩ := ih
    exact ⟨first, _, rfl, hfirst, hprimary⟩
  | call _ _ _ ih _ =>
    obtain ⟨first, others, rfl, hfirst, hprimary⟩ := ih
    exact ⟨first, _, rfl, hfirst, hprimary⟩
  | atom h => exact ⟨_, _, rfl, .inl (.inl ⟨_, h⟩), fun _ => .inl ⟨_, h⟩⟩
  | parentheses _ _ => exact ⟨_, _, rfl, .inl (.inr rfl), fun _ => .inr rfl⟩

/-- No expression begins with the mark that ends a list of arguments. -/
theorem StartsExpression.ne_closeParen {token : Token} (h : StartsExpression token) :
    token ≠ .mark .closeParen := by
  rintro rfl
  rcases h with (⟨_, ⟨⟩⟩ | h) | ⟨_, ⟨⟩⟩ | ⟨_, _, hmark, h⟩
  · cases h
  · cases hmark <;> cases h

/-! ### Rounds -/

section

variable {level : List Joiner} {operand : Parse Expression} {left right : Expression}
variable {tokens rest : List PlacedToken} {rounds : Nat}

theorem leads_chain {join : Expression → Expression → Expression} {place : PlacedToken}
    (hjoin : joinerOf? level (some place.token) = some join) (hright : Reads operand tokens right rest) :
    Leads (Rules.chain level operand (rounds + 1) left) (place :: tokens)
      (Rules.chain level operand rounds (join left right)) rest := by
  refine .bind (Reads.peek _) ?_
  rw [bare, List.map_cons, List.head?_cons, hjoin]
  refine .bind (Reads.advance place tokens) (.bind (Reads.descend tokens) (.bind hright (.refl _ _)))

theorem reads_chain (hnone : joinerOf? level (bare tokens).head? = none) :
    Reads (Rules.chain level operand (rounds + 1) left) tokens left tokens := by
  refine .bind (Reads.peek _) ?_
  rw [hnone]
  exact .refl _ _

end

section

variable {rules : Rules} {tokens rest : List PlacedToken} {rounds : Nat}

theorem leads_suffixes_call {callee : Expression} {arguments : List Expression} {place : PlacedToken}
    (hplace : place.token = .mark .openParen) (harguments : Reads rules.argumentList tokens arguments rest) :
    Leads (rules.suffixes (rounds + 1) callee) (place :: tokens)
      (rules.suffixes rounds (.call callee arguments)) rest := by
  refine .bind (Reads.peek _) ?_
  rw [bare, List.map_cons, List.head?_cons, hplace]
  exact .bind (Reads.descend _) (.bind (Reads.advance place tokens) (.bind harguments (.refl _ _)))

theorem leads_suffixes_member {object : Expression} {name : String} {place property : PlacedToken}
    (hplace : place.token = .mark .dot) (hproperty : property.token = .identifier name) :
    Leads (rules.suffixes (rounds + 1) object) (place :: property :: rest)
      (rules.suffixes rounds (.member object name)) rest := by
  refine .bind (Reads.peek _) ?_
  rw [bare, List.map_cons, List.head?_cons, hplace]
  exact .bind (Reads.descend _) (.bind (Reads.advance place _) (.bind (Reads.identifier hproperty rest) (.refl _ _)))

theorem leads_suffixes_count {name : String} {mark : Mark} {upwards : Bool} {place : PlacedToken}
    (hplace : place.token = .mark mark) (hmark : Counts mark upwards) :
    Leads (rules.suffixes (rounds + 1) (.name name)) (place :: rest)
      (rules.suffixes rounds (.update name upwards false)) rest := by
  have hcounted : Reads (Rules.countedBehind (.name name) upwards) (place :: rest)
      (.update name upwards false) rest :=
    .bind (Reads.descend _) (.bind (Reads.advance place rest) (.refl _ _))
  refine .bind (Reads.peek _) ?_
  rw [bare, List.map_cons, List.head?_cons, hplace]
  cases hmark with
  | up => exact .bind hcounted (.refl _ _)
  | down => exact .bind hcounted (.refl _ _)

theorem reads_suffixes {expression : Expression} (h : reach tokens < 12) :
    Reads (rules.suffixes (rounds + 1) expression) tokens expression tokens := by
  have hother {mark : Mark} (hmark : mark.reach = 12) : (bare tokens).head? ≠ some (.mark mark) :=
    head?_ne_of_reach (by omega)
  refine .bind (Reads.peek _) ?_
  split
  · rename_i hnext
    exact absurd hnext (hother rfl)
  · rename_i hnext
    exact absurd hnext (hother rfl)
  · rename_i hnext
    exact absurd hnext (hother rfl)
  · rename_i hnext
    exact absurd hnext (hother rfl)
  · exact .refl _ _

end

/-- Where nothing continues the expression no further round is made. -/
theorem reads_resume {layer : Layer} (hrepeats : layer.repeats = true) (rules : Rules) {rounds : Nat}
    (tree : Expression) {rest : List PlacedToken} (hrounds : rest.length < rounds)
    (hreach : reach rest < layer.index) : Reads (layer.resume rules rounds tree) rest tree rest := by
  cases rounds with
  | zero => exact absurd hrounds (Nat.not_lt_zero _)
  | succ rounds =>
    rcases Bool.or_eq_true_iff.1 hrepeats with hoperator | hsuffix
    · obtain ⟨inner, hlayer⟩ := Layer.exists_tighter hoperator
      obtain ⟨level, hlevels, hlevel⟩ := Layer.levels_eq hlayer hoperator
      unfold Layer.resume
      rw [hlevels]
      refine reads_chain (Option.eq_none_iff_forall_ne_some.2 fun join hjoin => ?_)
      -- a mark that joins reaches as far as the layer
      obtain ⟨mark, hnext, hmark⟩ := (joinerOf?_eq_some_iff hlevel).1 hjoin
      rw [reach_of_head? hnext, Layer.reach_of_join? hmark] at hreach
      exact Nat.lt_irrefl _ hreach
    · obtain rfl := of_decide_eq_true hsuffix
      exact reads_suffixes hreach

end SequenceNotation.Script
