import SequenceNotation.Proofs.Script.Grammar
import SequenceNotation.Proofs.Script.Reader

/-!
# The reader of expressions is sound

What the rules read as an expression the grammar derives from the tokens they have taken, with the tree
that they make.  Every rule takes what its layer derives, given that the rules it refers back to do.
-/

namespace SequenceNotation.Script

open Parse

/-- Tokens without function literals. -/
def Plain (tokens : List PlacedToken) : Prop :=
  ∀ place ∈ tokens, place.token ≠ .keyword .functionWord ∧ place.token ≠ .mark .arrow

instance (tokens : List PlacedToken) : Decidable (Plain tokens) :=
  inferInstanceAs (Decidable (∀ place ∈ tokens, _ ∧ _))

theorem Plain.right {taken rest : List PlacedToken} (h : Plain (taken ++ rest)) : Plain rest :=
  fun place hplace => h place (List.mem_append_right _ hplace)

theorem Plain.no_arrow {tokens : List PlacedToken} (h : Plain tokens) : ∀ place ∈ tokens, place.token ≠ .mark .arrow :=
  fun place hplace => (h place hplace).2

theorem Plain.of_eq {tokens taken rest : List PlacedToken} (h : Plain tokens)
    (htokens : tokens = taken ++ rest) : Plain rest :=
  (htokens ▸ h).right

theorem Plain.of_cons {tokens rest : List PlacedToken} {place : PlacedToken} (h : Plain tokens)
    (htokens : tokens = place :: rest) : Plain rest :=
  @of_eq tokens [place] rest h htokens

/-! ### No arrow functions -/

theorem mem_of_afterParenthesis {opened : Nat} {tokens rest : List PlacedToken}
    (h : afterParenthesis opened tokens = some rest) : ∀ place ∈ rest, place ∈ tokens := by
  induction tokens generalizing opened with
  | nil => cases h
  | cons first tokens ih =>
    have htail {opened' : Nat} (h' : afterParenthesis opened' tokens = some rest) :
        ∀ place ∈ rest, place ∈ first :: tokens :=
      fun place hplace => .tail _ (ih h' place hplace)
    unfold afterParenthesis at h
    split at h
    · exact htail h
    · split at h
      · cases h
        exact fun place hplace => .tail _ hplace
      · exact htail h
    · exact htail h

theorem startsArrowFunction_eq_false {tokens : List PlacedToken} (h : ∀ place ∈ tokens, place.token ≠ .mark .arrow) :
    startsArrowFunction tokens = false := by
  cases tokens with
  | nil => rfl
  | cons first tokens =>
    have hnext : ((afterParenthesis 1 tokens).bind List.head?).map (·.token) ≠ some (.mark .arrow) := by
      -- an arrow behind the parenthesis is one of the tokens
      intro hnext
      obtain ⟨place, hplace, htoken⟩ := Option.map_eq_some_iff.1 hnext
      obtain ⟨rest, hrest, hhead⟩ := Option.bind_eq_some_iff.1 hplace
      have hmem := mem_of_afterParenthesis hrest place (List.mem_of_mem_head? hhead)
      exact h place (.tail _ hmem) htoken
    unfold startsArrowFunction
    dsimp only
    rw [decide_eq_false hnext, Bool.and_false]

theorem run_arrowFunction (rules : Rules) {tokens : List PlacedToken}
    (h : ∀ place ∈ tokens, place.token ≠ .mark .arrow) (depth : Nat) :
    rules.arrowFunction?.run ⟨depth, tokens⟩ = .ok (none, ⟨depth, tokens⟩) := by
  have hsecond : (tokens[1]?).map (·.token) ≠ some (.mark .arrow) := by
    intro hsecond
    obtain ⟨place, hplace, htoken⟩ := Option.map_eq_some_iff.1 hsecond
    exact h place (List.mem_of_getElem? hplace) htoken
  have hfirst := startsArrowFunction_eq_false h
  unfold Rules.arrowFunction?
  rw [run_bind, run_peek?]
  dsimp only
  rw [run_bind, run_peek?]
  dsimp only
  split
  · rename_i harrow
    exact absurd harrow hsecond
  · show (if startsArrowFunction tokens then _ else pure none : Parse (Option Expression)).run _ = _
    rw [hfirst]
    rfl

/-! ### Operators by layer -/

/-- The layers of left-associative operators. -/
def Layer.isOperator : Layer → Bool
  | nullish | or | and | equality | relational | additive | multiplicative => true
  | _ => false

/-- The operators of the layer and of those between it and `**`. -/
def Layer.levels : Layer → List (List Joiner)
  | nullish => operatorLevels
  | or => operatorLevels.drop 1
  | and => operatorLevels.drop 2
  | equality => operatorLevels.drop 3
  | relational => operatorLevels.drop 4
  | additive => operatorLevels.drop 5
  | multiplicative => operatorLevels.drop 6
  | _ => []

theorem joinerOf?_eq_some_iff {layer : Layer} {level : List Joiner}
    (h : ∀ mark, level.lookup mark = layer.join? mark) {next : Option Token}
    {join : Expression → Expression → Expression} :
    joinerOf? level next = some join ↔ ∃ mark, next = some (.mark mark) ∧ layer.join? mark = some join := by
  unfold joinerOf?
  split
  · simp [h]
  · rename_i hnone
    constructor
    · intro h
      cases h
    · rintro ⟨mark, rfl, -⟩
      exact absurd rfl (hnone mark)

/-- The table of operators lists those of a layer in front of those of the tighter ones. -/
theorem Layer.levels_eq {layer inner : Layer} (hlayer : layer.tighter? = some inner)
    (hoperator : layer.isOperator = true) :
    ∃ level, layer.levels = level :: inner.levels ∧ ∀ mark, level.lookup mark = layer.join? mark := by
  cases layer <;> cases hoperator <;> cases hlayer <;>
    exact ⟨_, rfl, fun mark => by cases mark <;> rfl⟩

theorem Layer.isOperator_of_join? {layer : Layer} {mark : Mark}
    {join : Expression → Expression → Expression} (h : layer.join? mark = some join) :
    layer.isOperator = true := by
  cases layer <;> first | rfl | (cases mark <;> cases h)

theorem assignmentOperator?_eq_some_iff {next : Option Token} {operator : Option BinaryOperator} :
    Rules.assignmentOperator? next = some operator ↔
      ∃ mark, next = some (.mark mark) ∧ Assigns mark operator := by
  constructor
  · intro h
    unfold Rules.assignmentOperator? at h
    split at h <;> cases h
    · exact ⟨_, rfl, .plain⟩
    · exact ⟨_, rfl, .add⟩
    · exact ⟨_, rfl, .subtract⟩
    · exact ⟨_, rfl, .multiply⟩
    · exact ⟨_, rfl, .divide⟩
  · rintro ⟨mark, rfl, hmark⟩
    cases hmark <;> rfl

/-! ### Soundness of each rule -/

/-- The tokens of arguments up to the closing parenthesis, with the trees of the arguments. -/
def DerivesArguments (tokens : List Token) (trees : List Expression) : Prop :=
  ∃ arguments : List (List Token × Expression),
    (∀ argument ∈ arguments, Derives .assignment argument.1 argument.2) ∧
      tokens = commaSeparated (arguments.map Prod.fst) ++ [.mark .closeParen] ∧
      trees = arguments.map Prod.snd

theorem commaSeparated_cons_cons (first second : List Token) (others : List (List Token)) :
    commaSeparated (first :: second :: others) =
      first ++ .mark .comma :: commaSeparated (second :: others) := by
  simp [commaSeparated, List.intercalate]

/-- The rules that others refer back to take what their layers derive. -/
structure Sound (rules : Rules) : Prop where
  assignment : ∀ {tokens}, Plain tokens → Yields rules.assignment tokens (Derives .assignment)
  power : ∀ {tokens}, Plain tokens → Yields rules.power tokens (Derives .power)
  prefixed : ∀ {tokens}, Plain tokens → Yields rules.prefixed tokens (Derives .unary)

namespace Sound

variable {rules : Rules} (h : Sound rules) {tokens : List PlacedToken} (hplain : Plain tokens)
include h hplain

theorem argumentsRest (rounds : Nat) : Yields (rules.argumentsRest rounds) tokens fun taken trees =>
    trees ≠ [] ∧ DerivesArguments taken trees := by
  induction rounds generalizing tokens with
  | zero => exact .complain _
  | succ rounds ih =>
    refine .bind (h.assignment hplain) fun taken tree rest htokens htree => ?_
    have hrest := hplain.of_eq htokens
    refine .bind (.eat _) fun closing found rest' htokens' hfound => ?_
    have hrest' := hrest.of_eq htokens'
    rcases hfound with ⟨rfl, hclosing⟩ | ⟨rfl, hclosing⟩
    · -- the last argument
      refine .pure ⟨by simp, [(bare taken, tree)], by simpa using htree, ?_, rfl⟩
      rw [hclosing]
      simp [commaSeparated, List.intercalate]
    · -- a comma, with one argument more behind it at least
      refine .bind (.expect _) fun comma _ rest'' htokens'' hcomma => ?_
      refine .bind (ih (hrest'.of_eq htokens'')) fun more trees _ _ hmore => ?_
      obtain ⟨hne, arguments, harguments, hmore, htrees⟩ := hmore
      cases arguments with
      | nil => exact absurd htrees hne
      | cons second others =>
        refine .pure ⟨by simp, (bare taken, tree) :: second :: others, ?_, ?_, by rw [htrees]; rfl⟩
        · exact List.forall_mem_cons.2 ⟨htree, harguments⟩
        · rw [hclosing, hcomma, hmore]
          simp [commaSeparated_cons_cons]

theorem argumentList : Yields rules.argumentList tokens DerivesArguments := by
  refine .bind (.eat _) fun closing found rest htokens hfound => ?_
  rcases hfound with ⟨rfl, hclosing⟩ | ⟨rfl, hclosing⟩
  · refine .pure ⟨[], by simp, ?_, rfl⟩
    rw [hclosing]
    rfl
  · refine .bind_nothing .rounds fun rounds => ?_
    refine (h.argumentsRest (hplain.of_eq htokens) rounds).mono fun taken trees htaken => ?_
    rw [hclosing]
    exact htaken.2

theorem primary : Yields rules.primary tokens (Derives .primary) := by
  have hatom {token : Token} {tree : Expression} (hnext : (bare tokens).head? = some token)
      (htree : Atom token tree) :
      Yields (do advance; return tree) tokens (Derives .primary) :=
    .advance hnext fun _ _ _ => .pure (.atom htree)
  refine .peek ?_
  split <;> rename_i hnext
  · exact hatom hnext (.number _)
  · exact hatom hnext (.text _)
  · exact hatom hnext .true
  · exact hatom hnext .false
  · exact hatom hnext .null
  · exact hatom hnext .undefined
  · exact hatom hnext (.name _)
  · -- an expression in parentheses
    refine .advance hnext fun place rest htokens => ?_
    refine .bind (h.assignment (hplain.of_cons htokens)) fun taken inner _ _ hinner => ?_
    refine .bind (.expect _) fun closing _ _ _ hclosing => .pure ?_
    rw [hclosing, List.append_nil]
    exact .parentheses hinner
  · -- a function literal
    obtain ⟨place, hplace, htoken⟩ := List.mem_map.1 (List.mem_of_mem_head? hnext)
    exact absurd htoken (hplain place hplace).1
  · exact .complain _

/-- What stands behind an expression makes a larger expression of the layer. -/
theorem suffixes (rounds : Nat) {front : List Token} {tree : Expression}
    (htree : Derives .suffix front tree) : Yields (rules.suffixes rounds tree) tokens fun taken result =>
      Derives .suffix (front ++ taken) result := by
  induction rounds generalizing tokens front tree with
  | zero => exact .pure (by rwa [List.append_nil])
  | succ rounds ih =>
    have hnone : Yields (pure tree : Parse Expression) tokens fun taken result =>
        Derives .suffix (front ++ taken) result := .pure (by rwa [List.append_nil])
    -- what a round takes goes to the front, which the induction leaves open
    have hcounted {mark : Mark} {upwards : Bool} (hnext : (bare tokens).head? = some (.mark mark))
        (hmark : Counts mark upwards) :
        Yields (do rules.suffixes rounds (← Rules.countedBehind tree upwards)) tokens
          fun taken result => Derives .suffix (front ++ taken) result := by
      have hbehind : Yields (Rules.countedBehind tree upwards) tokens fun taken result =>
          taken = [.mark mark] ∧ Derives .suffix (front ++ [.mark mark]) result := by
        refine .bind_nothing .descend fun _ => ?_
        split
        · exact .advance hnext fun _ _ _ => .pure ⟨rfl, .countBehind hmark htree⟩
        · exact .complain _
      refine .bind hbehind fun taken result rest htokens hresult => ?_
      obtain ⟨htaken, hresult⟩ := hresult
      rw [htaken]
      refine (ih (hplain.of_eq htokens) hresult).mono fun more last hlast => ?_
      rwa [List.append_assoc] at hlast
    refine .peek ?_
    split <;> rename_i hnext
    · refine .bind_nothing .descend fun _ => .advance hnext fun place rest htokens => ?_
      have hrest := hplain.of_cons htokens
      refine .bind (h.argumentList hrest) fun taken trees rest' htokens' htrees => ?_
      obtain ⟨arguments, harguments, htaken, rfl⟩ := htrees
      refine (ih (hrest.of_eq htokens') (.call htree arguments harguments)).mono fun more result hresult => ?_
      rw [htaken]
      simpa using hresult
    · refine .bind_nothing .descend fun _ => .advance hnext fun place rest htokens => ?_
      refine .bind .identifier fun taken name rest' htokens' htaken => ?_
      refine (ih ((hplain.of_cons htokens).of_eq htokens') (.member htree name)).mono
        fun more result hresult => ?_
      rw [htaken]
      simpa using hresult
    · exact hcounted hnext .up
    · exact hcounted hnext .down
    · exact hnone

theorem unary : Yields rules.unary tokens (Derives .unary) := by
  have hoperator {token : Token} {operator : UnaryOperator} (hnext : (bare tokens).head? = some token)
      (htoken : Prefixes token operator) :
      Yields (rules.operatorFirst operator) tokens (Derives .unary) := by
    refine .advance hnext fun place rest htokens => ?_
    refine .bind (h.prefixed (hplain.of_cons htokens)) fun taken tree _ _ htree => .pure ?_
    rw [List.append_nil]
    exact .prefixed htoken htree
  have hcounted {mark : Mark} {upwards : Bool} (hnext : (bare tokens).head? = some (.mark mark))
      (hmark : Counts mark upwards) :
      Yields (Rules.countedName upwards) tokens (Derives .unary) := by
    refine .advance hnext fun place rest htokens => ?_
    refine .bind .identifier fun taken name _ _ htaken => .pure ?_
    rw [htaken]
    exact .countInFront hmark name
  refine .peek ?_
  split <;> rename_i hnext
  · exact hoperator hnext .negate
  · exact hoperator hnext .plus
  · exact hoperator hnext .not
  · exact hoperator hnext .typeof
  · exact hcounted hnext .up
  · exact hcounted hnext .down
  · -- no operator in front
    refine .bind (h.primary hplain) fun taken tree rest htokens htree => ?_
    refine .bind_nothing .rounds fun rounds => ?_
    exact (h.suffixes (hplain.of_eq htokens) rounds (.tighter rfl htree)).mono fun _ _ => .tighter rfl

theorem exponent : Yields rules.exponent tokens (Derives .power) := by
  refine .bind (h.unary hplain) fun taken base rest htokens hbase => ?_
  refine .bind (.eat _) fun operator found rest' htokens' hfound => ?_
  rcases hfound with ⟨rfl, hoperator⟩ | ⟨rfl, hoperator⟩
  · refine .bind (h.power ((hplain.of_eq htokens).of_eq htokens')) fun more exponent _ _ hexponent => .pure ?_
    rw [hoperator, List.append_nil]
    exact .power hbase hexponent
  · refine .pure ?_
    rw [hoperator, List.append_nil, List.append_nil]
    exact .tighter rfl hbase

omit h in
/-- A chain of operators makes a larger expression of the layer with each of its operands. -/
theorem chain {layer inner : Layer} {level : List Joiner} {operand : Parse Expression}
    (hlayer : layer.tighter? = some inner) (hlevel : ∀ mark, level.lookup mark = layer.join? mark)
    (hoperand : ∀ {tokens}, Plain tokens → Yields operand tokens (Derives inner)) (rounds : Nat)
    {front : List Token} {tree : Expression} (htree : Derives layer front tree) :
    Yields (Rules.chain level operand rounds tree) tokens fun taken result =>
      Derives layer (front ++ taken) result := by
  induction rounds generalizing tokens front tree with
  | zero => exact .pure (by rwa [List.append_nil])
  | succ rounds ih =>
    refine .peek ?_
    split
    · exact .pure (by rwa [List.append_nil])
    · rename_i join hjoin
      obtain ⟨mark, hnext, hmark⟩ := (joinerOf?_eq_some_iff hlevel).1 hjoin
      refine .advance hnext fun place rest htokens => .bind_nothing .descend fun _ => ?_
      have hrest := hplain.of_cons htokens
      refine .bind (hoperand hrest) fun taken right rest' htokens' hright => ?_
      refine (ih (hrest.of_eq htokens') (.join hlayer hmark htree hright)).mono fun more result hresult => ?_
      simpa using hresult

omit h hplain in
theorem operators {layer inner : Layer} (hlayer : layer.tighter? = some inner)
    (hoperator : layer.isOperator = true)
    (hinner : ∀ {tokens}, Plain tokens → Yields (rules.operators inner.levels) tokens (Derives inner))
    {tokens : List PlacedToken} (hplain : Plain tokens) :
    Yields (rules.operators layer.levels) tokens (Derives layer) := by
  obtain ⟨level, hlevels, hlevel⟩ := Layer.levels_eq hlayer hoperator
  rw [hlevels]
  refine .bind (hinner hplain) fun taken tree rest htokens htree => ?_
  refine .bind_nothing .rounds fun rounds => ?_
  exact Sound.chain (hplain.of_eq htokens) hlayer hlevel hinner rounds (.tighter hlayer htree)

theorem nullish : Yields (rules.operators operatorLevels) tokens (Derives .nullish) := by
  have hmultiplicative {tokens} :=
    @operators rules .multiplicative .power rfl rfl (fun hplain => h.exponent hplain) tokens
  have hadditive {tokens} := @operators rules .additive .multiplicative rfl rfl hmultiplicative tokens
  have hrelational {tokens} := @operators rules .relational .additive rfl rfl hadditive tokens
  have hequality {tokens} := @operators rules .equality .relational rfl rfl hrelational tokens
  have hand {tokens} := @operators rules .and .equality rfl rfl hequality tokens
  have hor {tokens} := @operators rules .or .and rfl rfl hand tokens
  exact @operators rules .nullish .or rfl rfl hor tokens hplain

theorem conditional : Yields rules.conditional tokens (Derives .conditional) := by
  refine .bind (h.nullish hplain) fun taken test rest htokens htest => ?_
  refine .bind (.eat _) fun question found rest' htokens' hfound => ?_
  have hrest := (hplain.of_eq htokens).of_eq htokens'
  rcases hfound with ⟨rfl, hquestion⟩ | ⟨rfl, hquestion⟩
  · refine .bind (h.assignment hrest) fun first consequent rest'' htokens'' hconsequent => ?_
    have hrest'' := hrest.of_eq htokens''
    refine .bind (.expect _) fun colon _ rest₃ htokens₃ hcolon => ?_
    refine .bind (h.assignment (hrest''.of_eq htokens₃)) fun second alternative _ _ halternative =>
      .pure ?_
    rw [hquestion, hcolon, List.append_nil]
    simpa using Derives.conditional htest hconsequent halternative
  · refine .pure ?_
    rw [hquestion, List.append_nil, List.append_nil]
    exact .tighter rfl htest

theorem expression : Yields rules.expression tokens (Derives .assignment) := by
  have harrow : Yields rules.arrowFunction? tokens fun taken found => taken = [] ∧ found = none :=
    .of_eq fun depth => ⟨none, depth, run_arrowFunction rules hplain.no_arrow depth, rfl, rfl⟩
  refine .bind harrow fun taken found rest htokens hfound => ?_
  obtain ⟨hnothing, rfl⟩ := hfound
  obtain rfl : taken = [] := List.map_eq_nil_iff.1 hnothing
  obtain rfl : tokens = rest := htokens
  refine .bind (h.conditional hplain) fun front target rest htokens htarget => .peek ?_
  split
  · exact .pure (by simpa using Derives.tighter rfl htarget)
  · rename_i operator hoperator
    obtain ⟨mark, hnext, hmark⟩ := assignmentOperator?_eq_some_iff.1 hoperator
    split
    · refine .advance hnext fun place rest' htokens' => ?_
      refine .bind (h.assignment ((hplain.of_eq htokens).of_cons htokens')) fun taken value _ _ hvalue =>
        .pure ?_
      rw [List.append_nil]
      exact .assign hmark htarget hvalue
    · exact .complain _

end Sound

/-- The rules at every level of nesting are sound. -/
theorem sound_rulesAt (levels : Nat) : Sound (rulesAt levels) := by
  induction levels with
  | zero => exact ⟨fun _ => .complain _, fun _ => .complain _, fun _ => .complain _⟩
  | succ levels ih =>
    exact ⟨fun hplain => .nested (ih.expression hplain), fun hplain => .nested (ih.exponent hplain),
      fun hplain => .nested (ih.unary hplain)⟩

end SequenceNotation.Script
