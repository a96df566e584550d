import SequenceNotation.Proofs.Script.Reader
import SequenceNotation.Proofs.Script.TreeHeight

/-!
# Heights under the nesting cap

What is nested gives its levels back, and so does everything in parentheses.  A tree is therefore built with
all the levels that are left, on top of one that was built with all but one of them.  The bound follows the
rules with the levels that are left: a rule may use them up, or read a part at one level less, but only a
chain of operators or suffixes grows a tree with each level that it uses up.
-/

namespace SequenceNotation.Script

open Parse

/-! ### Levels that are left -/

variable {α β : Type}

/-- The reader ends at the level at which it begins. -/
def Steady (x : Parse α) : Prop :=
  ∀ s a t, x.run s = .ok (a, t) → t.depth = s.depth

namespace Steady

variable {x : Parse α} {f : α → Parse β}

theorem pure (a : α) : Steady (pure a) := by
  intro s b t hrun
  cases hrun
  rfl

theorem complain (complaint : Complaint) : Steady (complain complaint : Parse α) := by
  intro s a t hrun
  cases hrun

theorem bind (h : Steady x) (hf : ∀ a, Steady (f a)) : Steady (x >>= f) := by
  intro s b t hrun
  rw [run_bind] at hrun
  split at hrun
  · rename_i a middle hx
    exact (hf a _ _ _ hrun).trans (h _ _ _ hx)
  · cases hrun

theorem peek (n : Nat) : Steady (peek? n) := by
  intro s a t hrun
  cases hrun
  rfl

theorem advance : Steady advance := by
  rintro ⟨depth, tokens⟩ a t hrun
  cases tokens <;> cases hrun
  rfl

theorem eat (token : Token) : Steady (eat token) := by
  intro s a t hrun
  rw [run_eat] at hrun
  split at hrun <;> cases hrun <;> rfl

theorem expect (token : Token) : Steady (expect token) := by
  refine (eat token).bind fun found => ?_
  cases found with
  | true => exact pure ()
  | false => exact complain _

theorem identifier : Steady identifier := by
  refine (peek 0).bind fun next => ?_
  split
  · exact advance.bind fun _ => pure _
  · exact complain _

theorem rounds : Steady rounds := by
  intro s a t hrun
  cases hrun
  rfl

/-- What is nested gives its levels back. -/
theorem nested (x : Parse α) : Steady (nested x) := by
  intro s a t hrun
  rw [run_nested] at hrun
  split at hrun
  · cases hrun
  · split at hrun <;> cases hrun
    rfl

theorem parameters (rounds : Nat) : Steady (parameters rounds) := by
  induction rounds with
  | zero => exact complain _
  | succ rounds ih =>
    refine identifier.bind fun _ => (eat _).bind fun closed => ?_
    cases closed with
    | true => exact pure _
    | false => exact (expect _).bind fun _ => ih.bind fun _ => pure _

theorem parameterList : Steady parameterList := by
  refine (eat _).bind fun closed => ?_
  cases closed with
  | true => exact pure _
  | false => exact rounds.bind parameters

end Steady

/-- With so many levels of nesting left at its start, the reader ends, if it succeeds, with levels left and with
a result as `Q` says. -/
def Leaves (levels : Nat) (x : Parse α) (Q : Nat → α → Prop) : Prop :=
  ∀ s a t, s.depth + levels = maxNesting → x.run s = .ok (a, t) → ∃ left, t.depth + left = maxNesting ∧ Q left a

namespace Leaves

variable {levels : Nat} {x : Parse α} {Q : Nat → α → Prop} {f : α → Parse β} {R : Nat → β → Prop}

theorem pure {a : α} (h : Q levels a) : Leaves levels (pure a) Q := by
  intro s b t hs hrun
  cases hrun
  exact ⟨levels, hs, h⟩

theorem complain (complaint : Complaint) : Leaves levels (complain complaint : Parse α) Q := by
  intro s a t _ hrun
  cases hrun

theorem bind (h : Leaves levels x Q) (hf : ∀ left a, Q left a → Leaves left (f a) R) :
    Leaves levels (x >>= f) R := by
  intro s b t hs hrun
  rw [run_bind] at hrun
  split at hrun
  · rename_i a middle hx
    obtain ⟨left, hleft, ha⟩ := h _ _ _ hs hx
    exact hf left a ha _ _ _ hleft hrun
  · cases hrun

theorem mono {Q' : Nat → α → Prop} (h : Leaves levels x Q) (hQ : ∀ left a, Q left a → Q' left a) :
    Leaves levels x Q' := by
  intro s a t hs hrun
  obtain ⟨left, hleft, ha⟩ := h s a t hs hrun
  exact ⟨left, hleft, hQ left a ha⟩

/-- A part that ends at its level leaves as many levels for what follows it. -/
theorem behind (h : Steady x) (hf : ∀ a, Leaves levels (f a) R) : Leaves levels (x >>= f) R := by
  refine bind (Q := fun left _ => left = levels) (fun s a t hs hrun => ?_) ?_
  · exact ⟨levels, by rw [h s a t hrun]; exact hs, rfl⟩
  · rintro left a rfl
    exact hf a

theorem descend {f : Unit → Parse β} (h : ∀ fewer, levels = fewer + 1 → Leaves fewer (f ()) R) :
    Leaves levels (descend >>= f) R := by
  intro s b t hs hrun
  rw [run_bind, run_descend] at hrun
  by_cases hdeep : maxNesting < s.depth + 1
  · rw [if_pos hdeep] at hrun
    cases hrun
  · rw [if_neg hdeep] at hrun
    have hdown : s.depth + 1 + (levels - 1) = maxNesting := by omega
    exact h (levels - 1) (by omega) _ _ _ hdown hrun

theorem nested {P : α → Prop} (h : ∀ fewer, levels = fewer + 1 → Leaves fewer x fun _ a => P a) :
    Leaves levels (nested x) fun left a => left = levels ∧ P a := by
  intro s a t hs hrun
  have hsteady := Steady.nested x s a t hrun
  rw [run_nested] at hrun
  split at hrun
  · cases hrun
  · rename_i hdeep
    split at hrun
    · rename_i b middle hx
      cases hrun
      obtain ⟨-, -, ha⟩ := h (levels - 1) (by omega) _ _ _ (by simp only; omega) hx
      exact ⟨levels, hsteady ▸ hs, rfl, ha⟩
    · cases hrun

end Leaves

/-! ### The cap on heights -/

/-- The cap on the height of an expression that is read with so many levels left.  One level more puts it into
parentheses, with `**` or `? :` and an operator for each level on top, or into a function that declares it. -/
def heightCap : (levels : Nat) → Nat
  | 0 => 1
  | levels + 1 => heightCap levels + max 2 (levels + 1)

theorem heightCap_pos (levels : Nat) : 0 < heightCap levels := by
  cases levels with
  | zero => exact Nat.one_pos
  | succ levels => simp only [heightCap]; omega

theorem add_two_le_heightCap (levels : Nat) : heightCap levels + 2 ≤ heightCap (levels + 1) :=
  Nat.add_le_add_left (Nat.le_max_left ..) _

theorem add_levels_le_heightCap (levels : Nat) : heightCap levels + levels + 1 ≤ heightCap (levels + 1) :=
  Nat.add_le_add_left (Nat.le_max_right 2 (levels + 1)) (heightCap levels)

theorem heightCap_mono {levels more : Nat} (h : levels ≤ more) : heightCap levels ≤ heightCap more := by
  induction h with
  | refl => exact Nat.le_refl _
  | @step more _ ih => exact Nat.le_trans ih (Nat.le_trans (Nat.le_add_right _ 2) (add_two_le_heightCap more))

/-- Every node of an operator is one node above its sides. -/
theorem height_of_joinerOf? {level : List Joiner} (hlevel : level ∈ operatorLevels) {next : Option Token}
    {join : Expression → Expression → Expression} (h : joinerOf? level next = some join)
    (left right : Expression) : (join left right).height = max left.height right.height + 1 := by
  unfold joinerOf? at h
  split at h
  · rename_i mark
    simp only [operatorLevels, List.mem_cons, List.not_mem_nil, or_false] at hlevel
    rcases hlevel with rfl | rfl | rfl | rfl | rfl | rfl | rfl <;> cases mark <;> cases h <;> rfl
  · cases h

/-- The rules that others refer back to give their levels back and read no tree above the cap. -/
structure Rules.Capped (rules : Rules) : Prop where
  statement (levels : Nat) : Leaves levels rules.statement fun left tree =>
    left = levels ∧ tree.height < heightCap levels
  assignment (levels : Nat) : Leaves levels rules.assignment fun left tree =>
    left = levels ∧ 0 < levels ∧ tree.height ≤ heightCap levels
  power (levels : Nat) : Leaves levels rules.power fun left tree => left = levels ∧ tree.height ≤ heightCap levels
  prefixed (levels : Nat) : Leaves levels rules.prefixed fun left tree =>
    left = levels ∧ tree.height < heightCap levels

namespace Rules.Capped

variable {rules : Rules} (h : rules.Capped)
include h

theorem blockRest (levels rounds : Nat) : Leaves levels (rules.blockRest rounds) fun left statements =>
    left = levels ∧ Statement.listHeight statements < heightCap levels := by
  induction rounds with
  | zero => exact .complain _
  | succ rounds ih =>
    refine .behind (.peek 0) fun next => ?_
    split
    · exact .behind .advance fun _ => .pure ⟨rfl, heightCap_pos levels⟩
    · exact .complain _
    · refine .bind (h.statement levels) ?_
      rintro left first ⟨rfl, hfirst⟩
      refine .bind ih ?_
      rintro left rest ⟨rfl, hrest⟩
      exact .pure ⟨rfl, Nat.max_lt.2 ⟨hfirst, hrest⟩⟩

theorem block (levels : Nat) : Leaves levels rules.block fun left statements =>
    left = levels ∧ Statement.listHeight statements < heightCap levels :=
  .behind .rounds (h.blockRest levels)

theorem functionRest (levels : Nat) : Leaves levels rules.functionRest fun left tree =>
    left = levels ∧ tree.height ≤ heightCap levels := by
  refine .behind (.expect _) fun _ => .behind .parameterList fun _ => .behind (.expect _) fun _ => ?_
  refine .bind (h.block levels) ?_
  rintro left statements ⟨rfl, hstatements⟩
  exact .pure ⟨rfl, hstatements⟩

theorem argumentsRest (levels rounds : Nat) : Leaves levels (rules.argumentsRest rounds) fun left arguments =>
    left = levels ∧ Expression.listHeight arguments ≤ heightCap levels := by
  induction rounds with
  | zero => exact .complain _
  | succ rounds ih =>
    refine .bind (h.assignment levels) ?_
    rintro left first ⟨rfl, -, hfirst⟩
    refine .behind (.eat _) fun closed => ?_
    cases closed with
    | true => exact .pure ⟨rfl, Nat.max_le.2 ⟨hfirst, Nat.zero_le _⟩⟩
    | false =>
      refine .behind (.expect _) fun _ => .bind ih ?_
      rintro left rest ⟨rfl, hrest⟩
      exact .pure ⟨rfl, Nat.max_le.2 ⟨hfirst, hrest⟩⟩

theorem argumentList (levels : Nat) : Leaves levels rules.argumentList fun left arguments =>
    left = levels ∧ Expression.listHeight arguments ≤ heightCap levels := by
  refine .behind (.eat _) fun closed => ?_
  cases closed with
  | true => exact .pure ⟨rfl, Nat.zero_le _⟩
  | false => exact .behind .rounds (h.argumentsRest levels)

theorem primary (levels : Nat) : Leaves levels rules.primary fun left tree =>
    left = levels ∧ tree.height ≤ heightCap levels := by
  refine .behind (.peek 0) fun next => ?_
  split
  case h_8 =>
    -- an expression in parentheses
    refine .behind .advance fun _ => .bind (h.assignment levels) ?_
    rintro left inner ⟨rfl, -, hinner⟩
    exact .behind (.expect _) fun _ => .pure ⟨rfl, hinner⟩
  case h_9 =>
    refine .behind .advance fun _ => .behind (.peek 0) fun next => ?_
    split
    · exact .behind .advance fun _ => h.functionRest levels
    · exact h.functionRest levels
  case h_10 => exact .complain _
  all_goals exact .behind .advance fun _ => .pure ⟨rfl, heightCap_pos levels⟩

omit h in
theorem countedBehind (levels : Nat) (expression : Expression) (upwards : Bool) :
    Leaves levels (Rules.countedBehind expression upwards) fun left tree => left + 1 = levels ∧ tree.height = 1 := by
  refine .descend fun fewer hfewer => ?_
  split
  · exact .behind .advance fun _ => .pure ⟨hfewer.symm, rfl⟩
  · exact .complain _

/-- Each suffix uses up a level and adds a node. -/
theorem suffixes {cap : Nat} (rounds levels : Nat) (expression : Expression)
    (hcap : heightCap levels + levels ≤ cap) (hexpression : expression.height + levels ≤ cap) :
    Leaves levels (rules.suffixes rounds expression) fun left tree =>
      left ≤ levels ∧ tree.height + left ≤ cap := by
  induction rounds generalizing levels expression with
  | zero => exact .pure ⟨Nat.le_refl _, hexpression⟩
  | succ rounds ih =>
    have hgo {fewer : Nat} {tree : Expression} (hfewer : levels = fewer + 1)
        (htree : tree.height ≤ max expression.height (heightCap fewer) + 1) :
        Leaves fewer (rules.suffixes rounds tree) fun left tree => left ≤ levels ∧ tree.height + left ≤ cap := by
      have hmono := heightCap_mono (Nat.le_add_right fewer 1)
      subst hfewer
      refine (ih fewer tree (by omega) (by omega)).mono fun left tree hleft => ?_
      exact ⟨Nat.le_succ_of_le hleft.1, hleft.2⟩
    have hcounted (upwards : Bool) : Leaves levels (do
        rules.suffixes rounds (← Rules.countedBehind expression upwards)) fun left tree =>
          left ≤ levels ∧ tree.height + left ≤ cap := by
      refine .bind (countedBehind levels expression upwards) ?_
      rintro left tree ⟨hleft, htree⟩
      exact hgo hleft.symm (by omega)
    refine .behind (.peek 0) fun next => ?_
    split
    · -- a call
      refine .descend fun fewer hfewer => .behind .advance fun _ => .bind (h.argumentList fewer) ?_
      rintro left arguments ⟨rfl, harguments⟩
      exact hgo hfewer (Nat.succ_le_succ (by omega))
    · -- a member
      refine .descend fun fewer hfewer => .behind .advance fun _ => .behind .identifier fun name => ?_
      exact hgo hfewer (Nat.succ_le_succ (Nat.le_max_left _ _))
    · exact hcounted true
    · exact hcounted false
    · exact .pure ⟨Nat.le_refl _, hexpression⟩

theorem operatorFirst (levels : Nat) (operator : UnaryOperator) :
    Leaves levels (rules.operatorFirst operator) fun left tree => left ≤ levels ∧
      tree.height + left ≤ heightCap levels + levels := by
  refine .behind .advance fun _ => .bind (h.prefixed levels) ?_
  rintro left operand ⟨rfl, hoperand⟩
  exact .pure ⟨Nat.le_refl _, Nat.add_le_add_right hoperand _⟩

omit h in
theorem countedName (levels : Nat) (upwards : Bool) :
    Leaves levels (Rules.countedName upwards) fun left tree => left ≤ levels ∧
      tree.height + left ≤ heightCap levels + levels :=
  .behind .advance fun _ => .behind .identifier fun _ =>
    .pure ⟨Nat.le_refl _, Nat.add_le_add_right (heightCap_pos levels) _⟩

theorem unary (levels : Nat) : Leaves levels rules.unary fun left tree =>
    left ≤ levels ∧ tree.height + left ≤ heightCap levels + levels := by
  refine .behind (.peek 0) fun next => ?_
  split
  · exact h.operatorFirst levels _
  · exact h.operatorFirst levels _
  · exact h.operatorFirst levels _
  · exact h.operatorFirst levels _
  · exact countedName levels _
  · exact countedName levels _
  · refine .bind (h.primary levels) ?_
    rintro left expression ⟨rfl, hexpression⟩
    exact .behind .rounds fun rounds =>
      h.suffixes rounds left expression (Nat.le_refl _) (Nat.add_le_add_right hexpression _)

/-- The sides of operators: a `**` adds one node, and the level it takes is given back. -/
theorem exponent (levels : Nat) : Leaves levels rules.exponent fun left tree =>
    left ≤ levels ∧ tree.height + left ≤ heightCap levels + levels + 1 := by
  refine .bind (h.unary levels) fun left base hbase => .behind (.eat _) fun found => ?_
  cases found with
  | true =>
    refine .bind (h.power left) ?_
    rintro left exponent ⟨rfl, hexponent⟩
    have hmono := heightCap_mono hbase.1
    refine .pure ⟨hbase.1, ?_⟩
    show max base.height exponent.height + 1 + left ≤ _
    omega
  | false => exact .pure ⟨hbase.1, by omega⟩

omit h in
/-- Each operator of a chain uses up a level and adds a node. -/
theorem chain {level : List Joiner} (hlevel : level ∈ operatorLevels) {operand : Parse Expression}
    (hoperand : ∀ levels, Leaves levels operand fun left tree =>
      left ≤ levels ∧ tree.height + left ≤ heightCap levels + levels + 1)
    {cap : Nat} (rounds levels : Nat) (first : Expression) (hcap : heightCap levels + levels + 1 ≤ cap)
    (hfirst : first.height + levels ≤ cap) :
    Leaves levels (Rules.chain level operand rounds first) fun left tree =>
      left ≤ levels ∧ tree.height + left ≤ cap := by
  induction rounds generalizing levels first with
  | zero => exact .pure ⟨Nat.le_refl _, hfirst⟩
  | succ rounds ih =>
    refine .behind (.peek 0) fun next => ?_
    split
    · exact .pure ⟨Nat.le_refl _, hfirst⟩
    · rename_i join hjoin
      refine .behind .advance fun _ => .descend fun fewer hfewer => .bind (hoperand fewer) ?_
      rintro left right ⟨hleft, hright⟩
      have hheight := height_of_joinerOf? hlevel hjoin first right
      have hmono := heightCap_mono (Nat.le_add_right fewer 1)
      have hmono' := heightCap_mono hleft
      subst hfewer
      refine (ih left (join first right) (by omega) (by omega)).mono fun left' tree htree => ?_
      exact ⟨by omega, htree.2⟩

theorem operators {levels : Nat} {tighter : List (List Joiner)} (hsub : tighter ⊆ operatorLevels) :
    Leaves levels (rules.operators tighter) fun left tree =>
      left ≤ levels ∧ tree.height + left ≤ heightCap levels + levels + 1 := by
  induction tighter generalizing levels with
  | nil => exact h.exponent levels
  | cons level tighter ih =>
    obtain ⟨hlevel, htighter⟩ := List.cons_subset.1 hsub
    refine .bind (ih htighter) fun left first hfirst => .behind .rounds fun rounds => ?_
    have hmono := heightCap_mono hfirst.1
    refine (chain hlevel (fun _ => ih htighter) rounds left first (by omega) hfirst.2).mono ?_
    rintro left' tree ⟨hleft, htree⟩
    exact ⟨Nat.le_trans hleft hfirst.1, htree⟩

theorem conditional (levels : Nat) : Leaves levels rules.conditional fun left tree =>
    left ≤ levels ∧ tree.height ≤ heightCap levels + levels + 1 := by
  refine .bind (h.operators (List.Subset.refl _)) ?_
  rintro left test ⟨hleft, htest⟩
  refine .behind (.eat _) fun found => ?_
  cases found with
  | true =>
    refine .bind (h.assignment left) ?_
    rintro left consequent ⟨rfl, hpos, hconsequent⟩
    refine .behind (.expect _) fun _ => .bind (h.assignment left) ?_
    rintro left alternative ⟨rfl, -, halternative⟩
    have hmono := heightCap_mono hleft
    refine .pure ⟨hleft, ?_⟩
    show max test.height (max consequent.height alternative.height) + 1 ≤ _
    omega
  | false => exact .pure ⟨hleft, by omega⟩

theorem arrowBody (levels : Nat) : Leaves levels rules.arrowBody fun left body =>
    left = levels ∧ body.height ≤ heightCap levels := by
  refine .behind (.eat _) fun found => ?_
  cases found with
  | true =>
    refine .bind (h.block levels) ?_
    rintro left statements ⟨rfl, hstatements⟩
    exact .pure ⟨rfl, Nat.le_of_lt hstatements⟩
  | false =>
    refine .bind (h.assignment levels) ?_
    rintro left result ⟨rfl, -, hresult⟩
    exact .pure ⟨rfl, hresult⟩

theorem arrowFunction? (levels : Nat) : Leaves levels rules.arrowFunction? fun left found =>
    left = levels ∧ ∀ tree ∈ found, tree.height ≤ heightCap levels + 1 := by
  have hfound (parameters : List String) : Leaves levels (do
      return some (Expression.function parameters (← rules.arrowBody))) fun left found =>
        left = levels ∧ ∀ tree ∈ found, tree.height ≤ heightCap levels + 1 := by
    refine .bind (h.arrowBody levels) ?_
    rintro left body ⟨rfl, hbody⟩
    refine .pure ⟨rfl, ?_⟩
    rintro tree ⟨⟩
    exact Nat.succ_le_succ hbody
  refine .behind (.peek 0) fun first => .behind (.peek 1) fun second => ?_
  split
  · exact .behind .advance fun _ => .behind .advance fun _ => hfound _
  · refine fun s => ?_
    show ∀ a t, _ → StateT.run (if startsArrowFunction s.tokens then _ else _) s = _ → _
    split
    · exact (Leaves.behind .advance fun _ => .behind .parameterList fun parameters =>
        .behind (.expect _) fun _ => hfound parameters : Leaves levels _ _) s
    · exact (Leaves.pure ⟨rfl, nofun⟩ : Leaves levels _ _) s

theorem expression (levels : Nat) : Leaves levels rules.expression fun _ tree =>
    tree.height ≤ heightCap (levels + 1) := by
  have hcap := add_levels_le_heightCap levels
  have hcap' := add_two_le_heightCap levels
  refine .bind (h.arrowFunction? levels) ?_
  rintro left found ⟨rfl, hfound⟩
  split
  · rename_i function
    have hfunction := hfound function rfl
    exact .pure (by omega)
  · -- no arrow function: a conditional, which may be assigned to
    refine .bind (h.conditional left) ?_
    rintro left' target ⟨hleft, htarget⟩
    refine .behind (.peek 0) fun next => ?_
    split
    · exact .pure (by omega)
    · split
      · -- the value is nested in the assignment
        refine .behind .advance fun _ => .bind (h.assignment left') ?_
        rintro left'' value ⟨rfl, -, hvalue⟩
        have hmono := heightCap_mono hleft
        refine .pure ?_
        show value.height + 1 ≤ _
        omega
      · exact .complain _

theorem bindings (levels rounds : Nat) : Leaves levels (rules.bindings rounds) fun left bindings =>
    left = levels ∧ Statement.bindingHeight bindings ≤ heightCap levels := by
  induction rounds with
  | zero => exact .complain _
  | succ rounds ih =>
    -- A binding gives its levels back, so the next one has as many.
    have hmore (name : String) {value : Option Expression}
        (hvalue : Expression.optionHeight value ≤ heightCap levels) : Leaves levels (do
          if ← Parse.eat (.mark .comma) then return (name, value) :: (← rules.bindings rounds)
          else return [(name, value)]) fun left bindings =>
            left = levels ∧ Statement.bindingHeight bindings ≤ heightCap levels := by
      refine .behind (.eat _) fun found => ?_
      cases found with
      | true =>
        refine .bind ih ?_
        rintro left rest ⟨rfl, hrest⟩
        exact .pure ⟨rfl, Nat.max_le.2 ⟨hvalue, hrest⟩⟩
      | false => exact .pure ⟨rfl, Nat.max_le.2 ⟨hvalue, Nat.zero_le _⟩⟩
    refine .behind .identifier fun name => .behind (.eat _) fun found => ?_
    cases found with
    | true =>
      have hvalue : Leaves levels (some <$> rules.assignment) fun left value =>
          left = levels ∧ Expression.optionHeight value ≤ heightCap levels := by
        show Leaves levels (rules.assignment >>= fun value => Pure.pure (some value)) _
        refine .bind (h.assignment levels) ?_
        rintro left value ⟨rfl, -, hvalue⟩
        exact .pure ⟨rfl, hvalue⟩
      refine .bind hvalue ?_
      rintro left value ⟨rfl, hvalue⟩
      exact hmore name hvalue
    | false => exact hmore name (Nat.zero_le _)

theorem declaration (levels : Nat) : Leaves levels rules.declaration fun _ tree =>
    tree.height ≤ heightCap levels + 1 := by
  refine .behind .advance fun _ => .behind .rounds fun rounds => .bind (h.bindings levels rounds) ?_
  rintro left bindings ⟨-, hbindings⟩
  exact .pure (Nat.succ_le_succ hbindings)

theorem testInParentheses (levels : Nat) : Leaves levels rules.testInParentheses fun left tree =>
    left = levels ∧ tree.height ≤ heightCap levels := by
  refine .behind .advance fun _ => .behind (.expect _) fun _ => .bind (h.assignment levels) ?_
  rintro left test ⟨rfl, -, htest⟩
  exact .behind (.expect _) fun _ => .pure ⟨rfl, htest⟩

theorem bareStatement (levels : Nat) : Leaves levels rules.bareStatement fun _ tree =>
    tree.height ≤ heightCap levels + 1 := by
  have hexpression : Leaves levels (do return Statement.expression (← rules.assignment)) fun _ tree =>
      tree.height ≤ heightCap levels + 1 := by
    refine .bind (h.assignment levels) ?_
    rintro left expression ⟨-, -, hexpression⟩
    exact .pure (Nat.succ_le_succ hexpression)
  have hleaf : 1 ≤ heightCap levels + 1 := Nat.le_add_left ..
  refine .behind (.peek 0) fun next => ?_
  split
  · -- the statements of a block are nested, so they are lower than the cap
    refine .behind .advance fun _ => .bind (h.block levels) ?_
    rintro left statements ⟨-, hstatements⟩
    exact .pure (Nat.succ_le_succ (Nat.le_of_lt hstatements))
  · exact h.declaration levels
  · exact h.declaration levels
  · exact h.declaration levels
  · -- a conditional statement gives back its levels in front of each branch
    refine .bind (h.testInParentheses levels) ?_
    rintro left test ⟨rfl, htest⟩
    refine .bind (h.statement left) ?_
    rintro left consequent ⟨rfl, hconsequent⟩
    have hconsequent := Nat.le_of_lt hconsequent
    refine .behind (.eat _) fun found => ?_
    cases found with
    | true =>
      refine .bind (h.statement left) ?_
      rintro left alternative ⟨rfl, halternative⟩
      exact .pure (Nat.succ_le_succ
        (Nat.max_le.2 ⟨htest, Nat.max_le.2 ⟨hconsequent, Nat.le_of_lt halternative⟩⟩))
    | false =>
      exact .pure (Nat.succ_le_succ (Nat.max_le.2 ⟨htest, Nat.max_le.2 ⟨hconsequent, Nat.zero_le _⟩⟩))
  · -- a loop
    refine .bind (h.testInParentheses levels) ?_
    rintro left test ⟨rfl, htest⟩
    refine .bind (h.statement left) ?_
    rintro left body ⟨rfl, hbody⟩
    exact .pure (Nat.succ_le_succ (Nat.max_le.2 ⟨htest, Nat.le_of_lt hbody⟩))
  · -- a result, with or without an expression
    refine .behind .advance fun _ => .behind (.peek 0) fun next => ?_
    split
    · exact .pure hleaf
    · exact .pure hleaf
    · exact .pure hleaf
    · refine .bind (h.assignment levels) ?_
      rintro left value ⟨-, -, hvalue⟩
      exact .pure (Nat.succ_le_succ hvalue)
  · exact .pure hleaf
  · -- a function is declared if a name follows, and is an expression otherwise
    refine .behind (.peek 1) fun second => ?_
    split
    · refine .behind .advance fun _ => .behind .advance fun _ => .bind (h.functionRest levels) ?_
      rintro left function ⟨-, hfunction⟩
      exact .pure (Nat.succ_le_succ (Nat.max_le.2 ⟨hfunction, Nat.zero_le _⟩))
    · exact hexpression
  · exact hexpression

theorem terminated (levels : Nat) : Leaves levels rules.terminated fun _ tree =>
    tree.height < heightCap (levels + 1) := by
  refine .bind (h.bareStatement levels) fun left statement hstatement => ?_
  refine .behind ((Steady.eat _).bind fun _ => .pure ()) fun _ => .pure ?_
  exact Nat.lt_of_lt_of_le (Nat.lt_succ_of_le hstatement) (add_two_le_heightCap levels)

end Rules.Capped

theorem capped_rulesAt (index : Nat) : (rulesAt index).Capped := by
  induction index with
  | zero => exact ⟨fun _ => .complain _, fun _ => .complain _, fun _ => .complain _, fun _ => .complain _⟩
  | succ index ih =>
    constructor
    case statement =>
      refine fun levels => .nested ?_
      rintro fewer rfl
      exact ih.terminated fewer
    case assignment =>
      refine fun levels => .nested ?_
      rintro fewer rfl
      exact (ih.expression fewer).mono fun _ _ htree => ⟨Nat.succ_pos fewer, htree⟩
    case power =>
      refine fun levels => .nested ?_
      rintro fewer rfl
      have hcap := add_levels_le_heightCap fewer
      exact (ih.exponent fewer).mono fun _ _ htree => by omega
    case prefixed =>
      refine fun levels => .nested ?_
      rintro fewer rfl
      have hcap := add_levels_le_heightCap fewer
      exact (ih.unary fewer).mono fun _ _ htree => by omega

end SequenceNotation.Script
