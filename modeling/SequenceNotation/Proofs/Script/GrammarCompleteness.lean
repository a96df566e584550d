import SequenceNotation.Proofs.Script.GrammarLayers

/-!
# The reader of expressions is complete

What the grammar derives the rules read, unless it is nested too deep.  A layer reads as far as it can, so
what it derives it reads where the next token cannot continue it.  A layer that is read in rounds is
brought to every expression that it derives, and goes on from there.
-/

namespace SequenceNotation.Script

open Parse

/-- The rule of the layer reads the expression from the tokens, wherever they stand in front of what
cannot continue it. -/
def ReadsAll (layer : Layer) (tokens : List Token) (tree : Expression) : Prop :=
  ∀ levels placed rest, bare placed = tokens → Plain (placed ++ rest) → reach rest < layer.index →
    Reads (layer.read (rulesAt levels)) (placed ++ rest) tree rest

/-- The rule of the layer gets to the expression and has enough rounds left for all that follows. -/
def GetsTo (layer : Layer) (tokens : List Token) (tree : Expression) : Prop :=
  ∀ levels placed rest, bare placed = tokens → Plain (placed ++ rest) → reach rest ≤ layer.index →
    ∃ rounds, rest.length < rounds ∧
      Leads (layer.read (rulesAt levels)) (placed ++ rest)
        (layer.resume (rulesAt levels) rounds tree) rest

theorem GetsTo.readsAll {layer : Layer} {tokens : List Token} {tree : Expression}
    (hrepeats : layer.repeats = true) (h : GetsTo layer tokens tree) : ReadsAll layer tokens tree := by
  intro levels placed rest hplaced hplain hreach
  obtain ⟨rounds, hrounds, hlead⟩ := h levels placed rest hplaced hplain (Nat.le_of_lt hreach)
  exact hlead.trans (reads_resume hrepeats _ tree hrounds hreach)

/-! ### Completeness of each layer -/

/-- The tokens on both sides of a mark. -/
theorem exists_of_bare_eq {placed : List PlacedToken} {front back : List Token} {token : Token}
    (h : bare placed = front ++ token :: back) :
    ∃ left place right, placed = left ++ place :: right ∧ bare left = front ∧ place.token = token ∧
      bare right = back := by
  obtain ⟨left, more, rfl, hleft, hmore⟩ := List.map_eq_append_iff.1 h
  obtain ⟨place, right, rfl, hplace, hright⟩ := List.map_eq_cons_iff.1 hmore
  exact ⟨left, place, right, rfl, hleft, hplace, hright⟩

section

variable {layer inner : Layer} {tokens : List Token} {tree : Expression}

/-- An operand is the first expression of its chain. -/
theorem ReadsAll.getsTo_operator (h : ReadsAll inner tokens tree) (hlayer : layer.tighter? = some inner)
    (hoperator : layer.isOperator = true) : GetsTo layer tokens tree := by
  intro levels placed rest hplaced hplain hreach
  obtain ⟨level, hlevels, -⟩ := Layer.levels_eq hlayer hoperator
  have hreach' : reach rest < inner.index :=
    Nat.lt_of_le_of_lt hreach (Layer.index_lt_of_tighter? hlayer hoperator)
  have hread := h levels placed rest hplaced hplain hreach'
  rw [Layer.read_inner hlayer hoperator] at hread
  refine ⟨rest.length + 1, Nat.lt_succ_self _, ?_⟩
  rw [Layer.read_operator hoperator, Layer.resume, hlevels]
  exact .bind hread (.bind (Reads.rounds rest) (.refl _ _))

/-- One more round joins the expression with an operand. -/
theorem GetsTo.join {mark : Mark} {join : Expression → Expression → Expression} {right : List Token}
    {rightTree : Expression} (h : GetsTo layer tokens tree) (hright : ReadsAll inner right rightTree)
    (hlayer : layer.tighter? = some inner) (hmark : layer.join? mark = some join) :
    GetsTo layer (tokens ++ .mark mark :: right) (join tree rightTree) := by
  intro levels placed rest hplaced hplain hreach
  obtain ⟨front, place, back, rfl, hfront, hplace, hback⟩ := exists_of_bare_eq hplaced
  rw [List.append_assoc, List.cons_append] at hplain ⊢
  have hoperator := Layer.isOperator_of_join? hmark
  obtain ⟨level, hlevels, hlevel⟩ := Layer.levels_eq hlayer hoperator
  have hreach' : reach (place :: (back ++ rest)) ≤ layer.index :=
    Nat.le_of_eq ((reach_cons hplace _).trans (Layer.reach_of_join? hmark))
  obtain ⟨rounds, hrounds, hlead⟩ := h levels front (place :: (back ++ rest)) hfront hplain hreach'
  have hinner : reach rest < inner.index :=
    Nat.lt_of_le_of_lt hreach (Layer.index_lt_of_tighter? hlayer hoperator)
  have hread := hright levels back rest hback (hplain.right.of_cons rfl) hinner
  rw [Layer.read_inner hlayer hoperator] at hread
  have hjoin : joinerOf? level (some place.token) = some join :=
    (joinerOf?_eq_some_iff hlevel).2 ⟨mark, congrArg some hplace, hmark⟩
  cases rounds with
  | zero => exact absurd hrounds (Nat.not_lt_zero _)
  | succ rounds =>
    -- the round has taken the mark, so the rounds left outnumber the tokens left
    refine ⟨rounds, ?_, hlead.trans ?_⟩
    · simp only [List.length_cons, List.length_append] at hrounds
      omega
    · unfold Layer.resume
      rw [hlevels]
      exact leads_chain hjoin hread

end

/-- The rule by which others refer back to the layer. -/
def Layer.deeper (layer : Layer) (rules : Rules) : Parse Expression :=
  match layer with
  | assignment => rules.assignment
  | power => rules.power
  | _ => rules.prefixed

/-- On the last level the nesting is too deep, above it the rule is that of the layer. -/
theorem ReadsAll.deeper {layer : Layer} {tokens : List Token} {tree : Expression}
    (h : ReadsAll layer tokens tree) (hlayer : layer ∈ [Layer.assignment, .power, .unary])
    (levels : Nat) {placed rest : List PlacedToken} (hplaced : bare placed = tokens)
    (hplain : Plain (placed ++ rest)) (hreach : reach rest < layer.index) :
    Reads (layer.deeper (rulesAt levels)) (placed ++ rest) tree rest := by
  cases levels with
  | zero => cases layer <;> exact .of_tooDeep
  | succ levels =>
    have hread := h levels placed rest hplaced hplain hreach
    cases layer with
    | assignment | power | unary => exact .nested hread
    | _ => simp at hlayer

/-- The rule that all others of nested expressions refer back to. -/
theorem ReadsAll.assignment {tokens : List Token} {tree : Expression} (h : ReadsAll .assignment tokens tree)
    (levels : Nat) {placed rest : List PlacedToken} (hplaced : bare placed = tokens)
    (hplain : Plain (placed ++ rest)) (hreach : reach rest < 1) :
    Reads (rulesAt levels).assignment (placed ++ rest) tree rest :=
  h.deeper (by simp) levels hplaced hplain hreach

/-! #### Primaries, calls and members -/

theorem readsAll_atom {token : Token} {tree : Expression} (h : Atom token tree) :
    ReadsAll .primary [token] tree := by
  intro levels placed rest hplaced _ _
  obtain ⟨place, more, rfl, hplace, hmore⟩ := List.map_eq_cons_iff.1 hplaced
  obtain rfl := List.map_eq_nil_iff.1 hmore
  refine .bind (Reads.peek _) ?_
  rw [bare, List.cons_append, List.map_cons, List.head?_cons, hplace]
  cases h <;> exact .bind (Reads.advance place rest) (.refl _ _)

theorem ReadsAll.parentheses {tokens : List Token} {tree : Expression}
    (h : ReadsAll .assignment tokens tree) :
    ReadsAll .primary (.mark .openParen :: (tokens ++ [.mark .closeParen])) tree := by
  intro levels placed rest hplaced hplain _
  obtain ⟨opening, more, rfl, hopening, hmore⟩ := List.map_eq_cons_iff.1 hplaced
  obtain ⟨inner, closing, last, rfl, hinner, hclosing, hlast⟩ := exists_of_bare_eq hmore
  obtain rfl := List.map_eq_nil_iff.1 hlast
  have htokens : (opening :: (inner ++ [closing])) ++ rest = opening :: (inner ++ closing :: rest) := by
    simp
  rw [htokens] at hplain ⊢
  have hreach : reach (closing :: rest) < 1 := by
    rw [reach_cons hclosing]
    exact Nat.one_pos
  refine .bind (Reads.peek _) ?_
  rw [bare, List.map_cons, List.head?_cons, hopening]
  refine .bind (Reads.advance opening _) (.bind (h.assignment levels hinner (hplain.of_cons rfl) hreach) ?_)
  rw [← hclosing]
  exact .bind (Reads.expect closing rest) (.refl _ _)

/-- Arguments are read up to the closing parenthesis.  Induction on those behind the first one. -/
theorem reads_argumentsRest {levels : Nat} {arguments : List (List Token × Expression)}
    {first : List Token × Expression}
    (h : ∀ argument ∈ first :: arguments, ReadsAll .assignment argument.1 argument.2)
    {placed rest : List PlacedToken} {closing : PlacedToken} {rounds : Nat}
    (hplaced : bare placed = commaSeparated ((first :: arguments).map Prod.fst))
    (hclosing : closing.token = .mark .closeParen) (hplain : Plain (placed ++ closing :: rest))
    (hrounds : placed.length < rounds) :
    Reads ((rulesAt levels).argumentsRest rounds) (placed ++ closing :: rest)
      ((first :: arguments).map Prod.snd) rest := by
  obtain ⟨hfirst, hothers⟩ := List.forall_mem_cons.1 h
  cases rounds with
  | zero => exact absurd hrounds (Nat.not_lt_zero _)
  | succ rounds =>
    induction arguments generalizing first placed rounds with
    | nil =>
      -- the only argument, in front of the parenthesis
      have hone : bare placed = first.1 := hplaced.trans (List.append_nil _)
      have hreach : reach (closing :: rest) < 1 := by
        rw [reach_cons hclosing]
        exact Nat.one_pos
      refine .bind (hfirst.assignment levels hone hplain hreach) ?_
      rw [← hclosing]
      exact .bind (Reads.eat closing rest) (.refl _ _)
    | cons second others ih =>
      -- the first argument, in front of the comma; the others have as many rounds as tokens
      have hcomma := hplaced.trans (commaSeparated_cons_cons first.1 second.1 (others.map Prod.fst))
      obtain ⟨front, comma, back, rfl, hfront, hcomma, hback⟩ := exists_of_bare_eq hcomma
      rw [List.append_assoc, List.cons_append] at hplain ⊢
      have hreach : reach (comma :: (back ++ closing :: rest)) < 1 := by
        rw [reach_cons hcomma]
        exact Nat.one_pos
      have hother : (bare (comma :: (back ++ closing :: rest))).head? ≠ some (.mark .closeParen) := by
        rw [bare, List.map_cons, List.head?_cons, hcomma]
        decide
      obtain ⟨hsecond, hmore⟩ := List.forall_mem_cons.1 hothers
      refine .bind (hfirst.assignment levels hfront hplain hreach) (.bind (Reads.eat_other hother) ?_)
      rw [← hcomma]
      refine .bind (Reads.expect comma _) (.bind ?_ (.refl _ _))
      have hlength : back.length < rounds := by
        simp only [List.length_append, List.length_cons] at hrounds
        omega
      cases rounds with
      | zero => exact absurd hlength (Nat.not_lt_zero _)
      | succ rounds =>
        exact ih hothers hback (hplain.right.of_cons rfl) hsecond hmore rounds hlength

theorem reads_argumentList {levels : Nat} {arguments : List (List Token × Expression)}
    (hderives : ∀ argument ∈ arguments, Derives .assignment argument.1 argument.2)
    (h : ∀ argument ∈ arguments, ReadsAll .assignment argument.1 argument.2)
    {placed rest : List PlacedToken} {closing : PlacedToken}
    (hplaced : bare placed = commaSeparated (arguments.map Prod.fst))
    (hclosing : closing.token = .mark .closeParen) (hplain : Plain (placed ++ closing :: rest)) :
    Reads (rulesAt levels).argumentList (placed ++ closing :: rest) (arguments.map Prod.snd) rest := by
  cases arguments with
  | nil =>
    obtain rfl : placed = [] := List.map_eq_nil_iff.1 hplaced
    rw [List.nil_append, Rules.argumentList, ← hclosing]
    exact .bind (Reads.eat closing rest) (.refl _ _)
  | cons first others =>
    -- the first token of the first argument does not close the list
    obtain ⟨token, more, hfirst, hstart, -⟩ := (hderives first (.head _)).exists_cons
    have hother : (bare (placed ++ closing :: rest)).head? ≠ some (.mark .closeParen) := by
      have hhead : (bare placed).head? = some token := by
        rw [hplaced, List.map_cons, hfirst]
        cases others <;> rfl
      rw [bare, List.map_append, List.head?_append, hhead]
      exact fun heq => hstart.ne_closeParen (Option.some.inj heq)
    refine .bind (Reads.eat_other hother) (.bind (Reads.rounds _) ?_)
    refine reads_argumentsRest h hplaced hclosing hplain ?_
    rw [List.length_append]
    omega

/-- A primary in front of whatever stands behind it. -/
theorem ReadsAll.getsTo_suffix {tokens : List Token} {tree : Expression}
    (h : ReadsAll .primary tokens tree) : GetsTo .suffix tokens tree := by
  intro levels placed rest hplaced hplain hreach
  have hread := h levels placed rest hplaced hplain (Nat.lt_succ_of_le hreach)
  exact ⟨rest.length + 1, Nat.lt_succ_self _, .bind hread (.bind (Reads.rounds rest) (.refl _ _))⟩

section

variable {tokens : List Token} {tree : Expression}

/-- One more round, given what it takes behind the expression. -/
theorem GetsTo.round {token : Token} {more : List Token} {tree' : Expression}
    (h : GetsTo .suffix tokens tree)
    (hround : ∀ levels place back rest rounds, place.token = token → bare back = more →
      Plain (back ++ rest) →
      Leads ((rulesAt levels).suffixes (rounds + 1) tree) (place :: (back ++ rest))
        ((rulesAt levels).suffixes rounds tree') rest) :
    GetsTo .suffix (tokens ++ token :: more) tree' := by
  intro levels placed rest hplaced hplain _
  obtain ⟨front, place, back, rfl, hfront, hplace, hback⟩ := exists_of_bare_eq hplaced
  rw [List.append_assoc, List.cons_append] at hplain ⊢
  obtain ⟨rounds, hrounds, hlead⟩ := h levels front _ hfront hplain (reach_le _)
  cases rounds with
  | zero => exact absurd hrounds (Nat.not_lt_zero _)
  | succ rounds =>
    refine ⟨rounds, ?_, hlead.trans ?_⟩
    · simp only [List.length_cons, List.length_append] at hrounds
      omega
    · exact hround levels place back rest rounds hplace hback (hplain.right.of_cons rfl)

theorem GetsTo.countBehind {name : String} {mark : Mark} {upwards : Bool}
    (h : GetsTo .suffix tokens (.name name)) (hmark : Counts mark upwards) :
    GetsTo .suffix (tokens ++ [.mark mark]) (.update name upwards false) := by
  refine h.round fun levels place back rest rounds hplace hback _ => ?_
  obtain rfl := List.map_eq_nil_iff.1 hback
  exact leads_suffixes_count hplace hmark

theorem GetsTo.member (h : GetsTo .suffix tokens tree) (name : String) :
    GetsTo .suffix (tokens ++ [.mark .dot, .identifier name]) (.member tree name) := by
  refine h.round fun levels place back rest rounds hplace hback _ => ?_
  obtain ⟨property, more, rfl, hproperty, hmore⟩ := List.map_eq_cons_iff.1 hback
  obtain rfl := List.map_eq_nil_iff.1 hmore
  exact leads_suffixes_member hplace hproperty

theorem GetsTo.call (h : GetsTo .suffix tokens tree) {arguments : List (List Token × Expression)}
    (hderives : ∀ argument ∈ arguments, Derives .assignment argument.1 argument.2)
    (harguments : ∀ argument ∈ arguments, ReadsAll .assignment argument.1 argument.2) :
    GetsTo .suffix
      (tokens ++ .mark .openParen :: (commaSeparated (arguments.map Prod.fst) ++ [.mark .closeParen]))
      (.call tree (arguments.map Prod.snd)) := by
  refine h.round fun levels place back rest rounds hplace hback hplain => ?_
  obtain ⟨inner, closing, last, rfl, hinner, hclosing, hlast⟩ := exists_of_bare_eq hback
  obtain rfl := List.map_eq_nil_iff.1 hlast
  rw [List.append_assoc, List.cons_append, List.nil_append] at hplain ⊢
  exact leads_suffixes_call hplace (reads_argumentList hderives harguments hinner hclosing hplain)

/-! #### Operators in front, and the right-associative one -/

/-- What begins with a primary is not taken for an operator and its operand. -/
theorem ReadsAll.unary_of_suffix (h : ReadsAll .suffix tokens tree)
    (hderives : Derives .suffix tokens tree) : ReadsAll .unary tokens tree := by
  intro levels placed rest hplaced hplain hreach
  obtain ⟨token, others, rfl, -, hprimary⟩ := hderives.exists_cons
  obtain ⟨first, more, rfl, hfirst, -⟩ := List.map_eq_cons_iff.1 hplaced
  have hread := h levels _ rest hplaced hplain (Nat.lt_succ_of_lt hreach)
  refine .bind (Reads.peek _) ?_
  rw [bare, List.cons_append, List.map_cons, List.head?_cons, hfirst]
  -- no token that a primary begins with is an operator in front
  rcases hprimary (Nat.le_refl _) with ⟨_, hatom⟩ | rfl
  · cases hatom <;> exact hread
  · exact hread

theorem ReadsAll.unary_of_operator {token : Token} {operator : UnaryOperator}
    (h : ReadsAll .unary tokens tree) (htoken : Prefixes token operator) :
    ReadsAll .unary (token :: tokens) (.unary operator tree) := by
  intro levels placed rest hplaced hplain hreach
  obtain ⟨first, operand, rfl, hfirst, hoperand⟩ := List.map_eq_cons_iff.1 hplaced
  have hread := h.deeper (by simp) levels hoperand (hplain.of_cons rfl) hreach
  have hoperator : Reads ((rulesAt levels).operatorFirst operator) (first :: (operand ++ rest))
      (.unary operator tree) rest :=
    .bind (Reads.advance first _) (.bind hread (.refl _ _))
  refine .bind (Reads.peek _) ?_
  rw [bare, List.cons_append, List.map_cons, List.head?_cons, hfirst]
  cases htoken <;> exact hoperator

theorem readsAll_countInFront {mark : Mark} {upwards : Bool} (hmark : Counts mark upwards)
    (name : String) : ReadsAll .unary [.mark mark, .identifier name] (.update name upwards true) := by
  intro levels placed rest hplaced _ _
  obtain ⟨first, more, rfl, hfirst, hmore⟩ := List.map_eq_cons_iff.1 hplaced
  obtain ⟨second, last, rfl, hsecond, hlast⟩ := List.map_eq_cons_iff.1 hmore
  obtain rfl := List.map_eq_nil_iff.1 hlast
  have hcounted : Reads (Rules.countedName upwards) (first :: second :: rest)
      (.update name upwards true) rest :=
    .bind (Reads.advance first _) (.bind (Reads.identifier hsecond rest) (.refl _ _))
  refine .bind (Reads.peek _) ?_
  rw [bare, List.cons_append, List.map_cons, List.head?_cons, hfirst]
  cases hmark <;> exact hcounted

theorem ReadsAll.power_of_unary (h : ReadsAll .unary tokens tree) : ReadsAll .power tokens tree := by
  intro levels placed rest hplaced hplain hreach
  have hother : (bare rest).head? ≠ some (.mark .power) := head?_ne_of_reach (Nat.ne_of_lt hreach)
  exact .bind (h levels placed rest hplaced hplain (Nat.lt_succ_of_lt hreach))
    (.bind (Reads.eat_other hother) (.refl _ _))

theorem ReadsAll.raise (h : ReadsAll .unary tokens tree) {exponent : List Token}
    {exponentTree : Expression} (hexponent : ReadsAll .power exponent exponentTree) :
    ReadsAll .power (tokens ++ .mark .power :: exponent) (.binary .power tree exponentTree) := by
  intro levels placed rest hplaced hplain hreach
  obtain ⟨base, place, more, rfl, hbase, hplace, hmore⟩ := exists_of_bare_eq hplaced
  rw [List.append_assoc, List.cons_append] at hplain ⊢
  have hstop : reach (place :: (more ++ rest)) < 11 := by
    rw [reach_cons hplace]
    decide
  have hread := hexponent.deeper (by simp) levels hmore (hplain.right.of_cons rfl) hreach
  refine .bind (h levels base _ hbase hplain hstop) ?_
  rw [← hplace]
  exact .bind (Reads.eat place _) (.bind hread (.refl _ _))

/-! #### Conditional expressions and assignments -/

/-- Where no question mark follows; an assignment mark may. -/
theorem ReadsAll.reads_conditional (h : ReadsAll .nullish tokens tree) (levels : Nat)
    {placed rest : List PlacedToken} (hplaced : bare placed = tokens) (hplain : Plain (placed ++ rest))
    (hreach : reach rest < 2) : Reads (rulesAt levels).conditional (placed ++ rest) tree rest := by
  have hother : (bare rest).head? ≠ some (.mark .question) := head?_ne_of_reach (Nat.ne_of_lt hreach)
  exact .bind (h levels placed rest hplaced hplain (Nat.lt_succ_of_lt hreach))
    (.bind (Reads.eat_other hother) (.refl _ _))

theorem ReadsAll.conditional_of_nullish (h : ReadsAll .nullish tokens tree) :
    ReadsAll .conditional tokens tree :=
  fun levels _ _ hplaced hplain hreach =>
    h.reads_conditional levels hplaced hplain (Nat.lt_succ_of_lt hreach)

theorem ReadsAll.choose (h : ReadsAll .nullish tokens tree) {consequent alternative : List Token}
    {consequentTree alternativeTree : Expression}
    (hconsequent : ReadsAll .assignment consequent consequentTree)
    (halternative : ReadsAll .assignment alternative alternativeTree) :
    ReadsAll .conditional (tokens ++ .mark .question :: (consequent ++ .mark .colon :: alternative))
      (.conditional tree consequentTree alternativeTree) := by
  intro levels placed rest hplaced hplain hreach
  obtain ⟨test, question, more, rfl, htest, hquestion, hmore⟩ := exists_of_bare_eq hplaced
  obtain ⟨first, colon, second, rfl, hfirst, hcolon, hsecond⟩ := exists_of_bare_eq hmore
  have htokens : (test ++ question :: (first ++ colon :: second)) ++ rest =
      test ++ question :: (first ++ colon :: (second ++ rest)) := by
    simp
  rw [htokens] at hplain ⊢
  have hplain' := hplain.right.of_cons rfl
  -- The question mark ends the test, and the colon the first branch.
  have hstop : reach (question :: (first ++ colon :: (second ++ rest))) < 3 := by
    rw [reach_cons hquestion]
    decide
  have hstop' : reach (colon :: (second ++ rest)) < 1 := by
    rw [reach_cons hcolon]
    decide
  refine .bind (h levels test _ htest hplain hstop) ?_
  rw [← hquestion]
  refine .bind (Reads.eat question _) (.bind (hconsequent.assignment levels hfirst hplain' hstop') ?_)
  rw [← hcolon]
  refine .bind (Reads.expect colon _) (.bind ?_ (.refl _ _))
  exact halternative.assignment levels hsecond (hplain'.right.of_cons rfl) hreach

theorem reads_arrowFunction {rules : Rules} {placed : List PlacedToken} (hplain : Plain placed) :
    Reads rules.arrowFunction? placed none placed :=
  .of_run fun depth => run_arrowFunction rules hplain.no_arrow depth

theorem ReadsAll.assignment_of_conditional (h : ReadsAll .conditional tokens tree) :
    ReadsAll .assignment tokens tree := by
  intro levels placed rest hplaced hplain hreach
  have hnone : Rules.assignmentOperator? (bare rest).head? = none := by
    refine Option.eq_none_iff_forall_ne_some.2 fun operator hoperator => ?_
    obtain ⟨mark, hnext, hmark⟩ := assignmentOperator?_eq_some_iff.1 hoperator
    rw [reach_of_head? hnext, hmark.reach] at hreach
    exact Nat.lt_irrefl _ hreach
  refine .bind (reads_arrowFunction hplain) (.bind (h levels placed rest hplaced hplain hreach) ?_)
  refine .bind (Reads.peek rest) ?_
  rw [hnone]
  exact .refl _ _

/-- The target, which is a name, is read where its assignment mark follows. -/
theorem ReadsAll.assign {name : String} {mark : Mark} {operator : Option BinaryOperator}
    (h : ReadsAll .nullish tokens (.name name)) (hmark : Assigns mark operator)
    {value : List Token} {valueTree : Expression} (hvalue : ReadsAll .assignment value valueTree) :
    ReadsAll .assignment (tokens ++ .mark mark :: value) (.assign name operator valueTree) := by
  intro levels placed rest hplaced hplain hreach
  obtain ⟨target, place, more, rfl, htarget, hplace, hmore⟩ := exists_of_bare_eq hplaced
  rw [List.append_assoc, List.cons_append] at hplain ⊢
  have hstop : reach (place :: (more ++ rest)) < 2 := by
    rw [reach_cons hplace, hmark.reach]
    decide
  have hoperator : Rules.assignmentOperator? (some place.token) = some operator :=
    assignmentOperator?_eq_some_iff.2 ⟨mark, congrArg some hplace, hmark⟩
  have hread := hvalue.assignment levels hmore (hplain.right.of_cons rfl) hreach
  refine .bind (reads_arrowFunction hplain) (.bind (h.reads_conditional levels htarget hplain hstop) ?_)
  refine .bind (Reads.peek _) ?_
  rw [bare, List.map_cons, List.head?_cons, hoperator]
  exact .bind (Reads.advance place _) (.bind hread (.refl _ _))

end

/-! ### Completeness -/

/-- What completeness says of a derivation.  A layer that is read in rounds also gets to the expression
where more of the layer follows, and a name is read where an assignment mark follows. -/
structure Readable (layer : Layer) (tokens : List Token) (tree : Expression) : Prop where
  readsAll : ReadsAll layer tokens tree
  getsTo : layer.repeats = true → GetsTo layer tokens tree
  target : layer = .conditional → ∀ name, tree = .name name → ReadsAll .nullish tokens tree

theorem GetsTo.readable {layer : Layer} {tokens : List Token} {tree : Expression}
    (hrepeats : layer.repeats = true) (h : GetsTo layer tokens tree) : Readable layer tokens tree where
  readsAll := h.readsAll hrepeats
  getsTo _ := h
  target hlayer := by
    subst hlayer
    cases hrepeats

theorem ReadsAll.readable {layer : Layer} {tokens : List Token} {tree : Expression}
    (hrepeats : layer.repeats = false) (hlayer : layer ≠ .conditional) (h : ReadsAll layer tokens tree) :
    Readable layer tokens tree where
  readsAll := h
  getsTo hrepeats' := absurd (hrepeats.symm.trans hrepeats') (by decide)
  target hlayer' := absurd hlayer' hlayer

theorem Layer.repeats_of_isOperator {layer : Layer} (h : layer.isOperator = true) :
    layer.repeats = true := by
  rw [repeats, h, Bool.true_or]

/-- What is derived on a tighter layer. -/
theorem Readable.of_tighter {layer inner : Layer} {tokens : List Token} {tree : Expression}
    (hlayer : layer.tighter? = some inner) (hderives : Derives inner tokens tree)
    (h : Readable inner tokens tree) : Readable layer tokens tree := by
  have hoperator (hoperator : layer.isOperator = true) : Readable layer tokens tree :=
    (h.readsAll.getsTo_operator hlayer hoperator).readable (Layer.repeats_of_isOperator hoperator)
  cases layer with
  | assignment =>
    cases hlayer
    exact h.readsAll.assignment_of_conditional.readable rfl (by decide)
  | conditional =>
    cases hlayer
    exact ⟨h.readsAll.conditional_of_nullish, fun h => absurd h (by decide), fun _ _ _ => h.readsAll⟩
  | power =>
    cases hlayer
    exact h.readsAll.power_of_unary.readable rfl (by decide)
  | unary =>
    cases hlayer
    exact (h.readsAll.unary_of_suffix hderives).readable rfl (by decide)
  | suffix =>
    cases hlayer
    exact h.readsAll.getsTo_suffix.readable rfl
  | primary => cases hlayer
  | _ => exact hoperator rfl

/-- Every derivation is read.  Induction on it, one case for each rule of the grammar. -/
theorem Derives.readable {layer : Layer} {tokens : List Token} {tree : Expression}
    (h : Derives layer tokens tree) : Readable layer tokens tree := by
  induction h with
  | tighter hlayer hderives ih => exact ih.of_tighter hlayer hderives
  | assign hmark _ _ ihTarget ihValue =>
    exact ((ihTarget.target rfl _ rfl).assign hmark ihValue.readsAll).readable rfl (by decide)
  | conditional _ _ _ ihTest ihConsequent ihAlternative =>
    exact ⟨ihTest.readsAll.choose ihConsequent.readsAll ihAlternative.readsAll,
      fun h => absurd h (by decide), fun _ _ h => nomatch h⟩
  | join hlayer hmark _ _ ihLeft ihRight =>
    have hrepeats := Layer.repeats_of_isOperator (Layer.isOperator_of_join? hmark)
    exact ((ihLeft.getsTo hrepeats).join ihRight.readsAll hlayer hmark).readable hrepeats
  | power _ _ ihBase ihExponent =>
    exact (ihBase.readsAll.raise ihExponent.readsAll).readable rfl (by decide)
  | prefixed htoken _ ih => exact (ih.readsAll.unary_of_operator htoken).readable rfl (by decide)
  | countInFront hmark name => exact (readsAll_countInFront hmark name).readable rfl (by decide)
  | countBehind hmark _ ih => exact ((ih.getsTo rfl).countBehind hmark).readable rfl
  | member _ name ih => exact ((ih.getsTo rfl).member name).readable rfl
  | call _ arguments harguments ih ihArguments =>
    exact ((ih.getsTo rfl).call harguments fun argument hargument =>
      (ihArguments argument hargument).readsAll).readable rfl
  | atom h => exact (readsAll_atom h).readable rfl (by decide)
  | parentheses _ ih => exact ih.readsAll.parentheses.readable rfl (by decide)

/-! ### The reader and the grammar -/

/-- Reads tokens that are exactly one expression. -/
def parseTokens (tokens : List PlacedToken) : Except SyntaxFault Expression :=
  match wholeExpression.run ⟨0, tokens⟩ with
  | .ok (expression, _) => .ok expression
  | .error fault => .error fault

theorem parseExpression_eq (source : String) :
    parseExpression source = (tokenize source).bind parseTokens := by
  unfold parseExpression parseSource
  cases tokenize source with
  | error fault => rfl
  | ok tokens =>
    show (wholeExpression.run ⟨0, tokens⟩ >>= fun p => pure p.1) = parseTokens tokens
    unfold parseTokens
    cases wholeExpression.run ⟨0, tokens⟩ <;> rfl

/-- One expression, and nothing behind it. -/
theorem run_wholeExpression (s : ParseState) :
    wholeExpression.run s =
      match grammar.assignment.run s with
      | .ok (tree, t) =>
        if t.tokens = [] then .ok (tree, t) else .error (.misplaced .expectedEnd t.tokens.head?)
      | .error fault => .error fault := by
  unfold wholeExpression
  rw [run_bind]
  cases grammar.assignment.run s with
  | error fault => rfl
  | ok p =>
    obtain ⟨tree, depth, tokens⟩ := p
    cases tokens <;> rfl

theorem parseTokens_eq_ok_iff {tokens : List PlacedToken} {tree : Expression} :
    parseTokens tokens = .ok tree ↔ ∃ depth, grammar.assignment.run ⟨0, tokens⟩ = .ok (tree, ⟨depth, []⟩) := by
  unfold parseTokens
  rw [run_wholeExpression]
  cases grammar.assignment.run ⟨0, tokens⟩ with
  | error fault => simp
  | ok p =>
    obtain ⟨tree', depth, rest⟩ := p
    cases rest <;> simp

theorem parseExpression_tokens {source : String} {tree : Expression} (h : parseExpression source = .ok tree) :
    ∃ tokens, tokenize source = .ok tokens ∧ parseTokens tokens = .ok tree := by
  rw [parseExpression_eq] at h
  cases htokens : tokenize source with
  | error fault =>
    rw [htokens] at h
    cases h
  | ok tokens =>
    rw [htokens] at h
    exact ⟨tokens, rfl, h⟩

theorem parseTokens_of_derives {tokens : List PlacedToken} {tree : Expression} (hplain : Plain tokens)
    (h : Derives .assignment (bare tokens) tree) :
    parseTokens tokens = .ok tree ∨
      ∃ found, parseTokens tokens = .error (.misplaced .tooDeep found) := by
  have hread : Reads grammar.assignment (tokens ++ []) tree [] :=
    h.readable.readsAll.assignment _ rfl (by rwa [List.append_nil]) (by decide)
  rw [List.append_nil] at hread
  unfold parseTokens
  rw [run_wholeExpression]
  rcases hread 0 with ⟨depth, hrun⟩ | ⟨found, hdeep⟩
  · rw [hrun]
    exact .inl rfl
  · rw [hdeep]
    exact .inr ⟨found, rfl⟩

theorem derives_of_parseTokens {tokens : List PlacedToken} {tree : Expression} (hplain : Plain tokens)
    (h : parseTokens tokens = .ok tree) : Derives .assignment (bare tokens) tree := by
  unfold parseTokens at h
  rw [run_wholeExpression] at h
  cases hrun : grammar.assignment.run ⟨0, tokens⟩ with
  | error fault =>
    rw [hrun] at h
    cases h
  | ok p =>
    obtain ⟨tree', depth, rest⟩ := p
    obtain ⟨taken, htokens, hderives⟩ := (sound_rulesAt _).assignment hplain _ _ _ _ hrun
    rw [hrun] at h
    dsimp only at h
    split at h
    · rename_i hend
      split at hend
      · rename_i hrest
        cases h
        cases hend
        obtain rfl : rest = [] := hrest
        rwa [htokens, List.append_nil]
      · cases hend
    · cases h

/-- The reader of expressions accepts exactly what the grammar derives, with the tree that it derives,
but for what is nested too deep. -/
theorem parse_iff_derives :
    (∀ source, parseExpression source = (tokenize source).bind parseTokens) ∧
    ∀ tokens, Plain tokens →
      (∀ tree, Derives .assignment (bare tokens) tree →
        parseTokens tokens = .ok tree ∨
          ∃ found, parseTokens tokens = .error (.misplaced .tooDeep found)) ∧
      ∀ tree, parseTokens tokens = .ok tree → Derives .assignment (bare tokens) tree :=
  ⟨parseExpression_eq, fun _ hplain =>
    ⟨fun _ => parseTokens_of_derives hplain, fun _ => derives_of_parseTokens hplain⟩⟩

/-- The tokens of `n = a - b - f(c)`. -/
def differenceTokens : List PlacedToken :=
  [⟨.identifier "n", 0, 1⟩, ⟨.mark .assign, 2, 3⟩, ⟨.identifier "a", 4, 5⟩, ⟨.mark .minus, 6, 7⟩,
    ⟨.identifier "b", 8, 9⟩, ⟨.mark .minus, 10, 11⟩, ⟨.identifier "f", 12, 13⟩,
    ⟨.mark .openParen, 13, 14⟩, ⟨.identifier "c", 14, 15⟩, ⟨.mark .closeParen, 15, 16⟩]

/-- The tree of `n = ((a - b) - f(c))`. -/
def differenceTree : Expression :=
  .assign "n" none (.binary .subtract (.binary .subtract (.name "a") (.name "b"))
    (.call (.name "f") [.name "c"]))

/-- The difference is read and derived with the same tree, which joins the first two of its parts. -/
theorem parse_difference :
    parseTokens differenceTokens = .ok differenceTree ∧
      Derives .assignment (bare differenceTokens) differenceTree ∧
      (parseTokens differenceTokens = .ok differenceTree ∨
        ∃ found, parseTokens differenceTokens = .error (.misplaced .tooDeep found)) := by
  have hplain : Plain differenceTokens := by decide
  have hread : parseTokens differenceTokens = .ok differenceTree := rfl
  have h := parse_iff_derives.2 differenceTokens hplain
  have hderives := h.2 differenceTree hread
  exact ⟨hread, hderives, h.1 differenceTree hderives⟩

end SequenceNotation.Script
