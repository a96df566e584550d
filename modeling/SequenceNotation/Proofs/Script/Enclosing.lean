import SequenceNotation.Proofs.Script.BeforeClosing
import SequenceNotation.Proofs.Script.GrammarCompleteness
import SequenceNotation.Proofs.Script.Lookahead
import SequenceNotation.Script.Snippet

/-!
# Sources in parentheses

A snippet is put into parentheses as a text, before it is read.  The parentheses enclose it if they are
tokens of their own and belong together.  That fails for a source that ends with a comment, which takes
the closing parenthesis, and for one whose parentheses do not match each other.
-/

namespace SequenceNotation.Script

open SequenceNotation.Number Parse

/-! ### Tokens of a source in parentheses -/

/-- Whether the last lexeme is a comment that the text does not end. -/
def endsInComment : List Char → Bool
  | [] => false
  | c :: rest =>
    c = '/' && rest.head? = some '/' && rest.all (· ≠ '\n') || endsInComment (rest.drop (lexemeAt c rest).2)
termination_by text => text.length
decreasing_by simp only [List.length_drop, List.length_cons]; omega

theorem endsInComment_cons {c : Char} {rest : List Char} (h : ¬(c = '/' ∧ rest.head? = some '/')) :
    endsInComment (c :: rest) = endsInComment (rest.drop (lexemeAt c rest).2) := by
  rw [endsInComment]
  simp only [Bool.or_eq_right_iff_imp, Bool.and_eq_true_iff, decide_eq_true_eq]
  exact fun hcomment => absurd hcomment.1 h

/-- A string literal that is not closed is not closed by a parenthesis. -/
theorem stringTail_append_closeParen {quote : Char} (hquote : quote = '"' ∨ quote = '\'') {text : List Char}
    (h : (stringTail quote text).1 = false) : (stringTail quote (text ++ [')'])).1 = false := by
  cases hclosed : (stringTail quote (text ++ [')'])).1 with
  | false => rfl
  | true =>
    obtain ⟨body, tail, hbody, htext, -⟩ := exists_stringBody (Prod.ext hclosed rfl)
    have hback : quote ≠ '\\' := by rcases hquote with rfl | rfl <;> decide
    obtain rfl | ⟨front, last, rfl⟩ := List.eq_nil_or_concat tail
    · -- the quote would be the parenthesis
      obtain ⟨-, hlast⟩ := List.append_inj' htext rfl
      rcases hquote with rfl | rfl <;> cases hlast
    · rw [List.concat_eq_append, ← List.cons_append, ← List.append_assoc] at htext
      obtain ⟨rfl, -⟩ := List.append_inj' htext rfl
      rw [hbody.stringTail_append hback] at h
      cases h

theorem dropWhile_append_closeParen {text : List Char} (h : '\n' ∈ text) :
    (text ++ [')']).dropWhile (· ≠ '\n') = text.dropWhile (· ≠ '\n') ++ [')'] := by
  induction text with
  | nil => cases h
  | cons c rest ih =>
    by_cases hc : c = '\n'
    · simp [hc]
    · have hrest : '\n' ∈ rest := (List.mem_cons.1 h).resolve_left (Ne.symm hc)
      have hc' : decide (c ≠ '\n') = true := decide_eq_true hc
      rw [List.cons_append, List.dropWhile_cons, List.dropWhile_cons, if_pos hc', if_pos hc', ih hrest]

/-- A parenthesis behind the text is one more token, unless a comment takes it. -/
def ClosesBehind (text : List Char) : Prop :=
  tokensIn (text ++ [')']) =
    if endsInComment text then tokensIn text else (tokensIn text).map (· ++ [.mark .closeParen])

namespace ClosesBehind

variable {c : Char} {rest : List Char} {n : Nat}

theorem skipped (h : lexemeAt c rest = (.skipped, n)) (h' : lexemeAt c (rest ++ [')']) = (.skipped, n))
    (hends : endsInComment (c :: rest) = endsInComment (rest.drop n)) (hn : n ≤ rest.length)
    (hrest : ClosesBehind (rest.drop n)) : ClosesBehind (c :: rest) := by
  unfold ClosesBehind at hrest ⊢
  rw [List.cons_append, tokensIn_skipped h', tokensIn_skipped h, hends, List.drop_append_of_le_length hn, hrest]

theorem token {token : Token} (h : lexemeAt c rest = (.token token, n))
    (h' : lexemeAt c (rest ++ [')']) = (.token token, n))
    (hends : endsInComment (c :: rest) = endsInComment (rest.drop n)) (hn : n ≤ rest.length)
    (hrest : ClosesBehind (rest.drop n)) : ClosesBehind (c :: rest) := by
  unfold ClosesBehind at hrest ⊢
  rw [List.cons_append, tokensIn_token h', tokensIn_token h, hends, List.drop_append_of_le_length hn, hrest]
  split
  · rfl
  · cases tokensIn (rest.drop n) <;> rfl

theorem unreadable (h : tokensIn (c :: rest) = none) (h' : tokensIn (c :: (rest ++ [')'])) = none) :
    ClosesBehind (c :: rest) := by
  unfold ClosesBehind
  rw [List.cons_append, h', h]
  split <;> rfl

/-- A comment takes the parenthesis if it is on the last line. -/
theorem comment (h : rest.head? = some '/') (hrest : ClosesBehind (rest.dropWhile (· ≠ '\n'))) :
    ClosesBehind ('/' :: rest) := by
  have h' : (rest ++ [')']).head? = some '/' := by rw [List.head?_append, h]; rfl
  have hn : (lexemeAt '/' rest).2 = runLength (· ≠ '\n') rest := by
    unfold lexemeAt
    rw [if_neg (by decide), if_pos ⟨rfl, h⟩]
  unfold ClosesBehind at hrest ⊢
  rw [List.cons_append, tokensIn_comment h', tokensIn_comment h, endsInComment, h, hn, drop_runLength]
  by_cases hline : '\n' ∈ rest
  · have hall : rest.all (· ≠ '\n') = false := by
      rw [List.all_eq_false]
      exact ⟨'\n', hline, by simp⟩
    rw [dropWhile_append_closeParen hline, hrest, hall, Bool.and_false, Bool.false_or]
  · have hall (c : Char) (hc : c ∈ rest) : decide (c ≠ '\n') = true :=
      decide_eq_true fun heq => hline (heq ▸ hc)
    have hnil : rest.dropWhile (· ≠ '\n') = [] := by
      rw [← List.append_nil rest, List.dropWhile_append_of_pos hall]
      rfl
    rw [List.dropWhile_append_of_pos hall, hnil, List.all_eq_true.2 hall]
    rfl

end ClosesBehind

theorem closesBehind (text : List Char) : ClosesBehind text := by
  induction text using lexeme_induction with
  | nil =>
    unfold ClosesBehind
    rw [List.nil_append, tokensIn_closeParen, tokensIn_nil, endsInComment]
    rfl
  | cons c rest ih =>
    by_cases hcomment : c = '/' ∧ rest.head? = some '/'
    · -- a comment takes what is behind it, the parenthesis too if no line ends before
      obtain ⟨rfl, hrest⟩ := hcomment
      refine .comment hrest ?_
      rwa [lexemeAt, if_neg (by decide), if_pos ⟨rfl, hrest⟩, drop_runLength] at ih
    have hends := endsInComment_cons hcomment
    by_cases hstring : c = '"' ∨ c = '\''
    · cases hclosed : (stringTail c rest).1 with
      | false =>
        exact .unreadable (tokensIn_unclosed hstring hclosed)
          (tokensIn_unclosed hstring (stringTail_append_closeParen hstring hclosed))
      | true =>
        obtain ⟨body, tail, hbody, rfl, -⟩ := exists_stringBody (Prod.ext hclosed rfl)
        have hlexeme := lexemeAt_string hstring hbody tail
        have hlexeme' := lexemeAt_string hstring hbody (tail ++ [')'])
        rw [← List.cons_append, ← List.append_assoc] at hlexeme'
        rw [hlexeme] at hends ih
        exact .token hlexeme hlexeme' hends (by simp) ih
    · -- any other lexeme stops in front of a parenthesis
      have hlexeme := lexemeAt_append_stop (.inr rfl) rest [] hstring hcomment
      have hlength := lexemeAt_le c rest
      cases htaken : lexemeAt c rest with
      | mk lexeme n =>
        rw [htaken] at hlexeme hlength hends ih
        cases lexeme with
        | skipped => exact .skipped htaken hlexeme hends hlength ih
        | unreadable => exact .unreadable (tokensIn_unreadable htaken) (tokensIn_unreadable hlexeme)
        | token token => exact .token htaken hlexeme hends hlength ih

theorem tokensOf_parenthesised (source : String) :
    tokensOf (parenthesised source) =
      if endsInComment source.toList then (tokensOf source).map (.mark .openParen :: ·)
      else (tokensOf source).map fun tokens => .mark .openParen :: (tokens ++ [.mark .closeParen]) := by
  have hchars : (parenthesised source).toList = '(' :: (source.toList ++ [')']) := by
    simp [parenthesised]
  show tokensIn (parenthesised source).toList = if _ then (tokensIn source.toList).map _ else (tokensIn source.toList).map _
  rw [hchars, tokensIn_openParen, closesBehind]
  split
  · rfl
  · rw [Option.map_map]
    rfl

/-! ### The expression in the parentheses -/

/-- No arrow function begins with a parenthesis that is closed by the last token only. -/
theorem afterParenthesis_eq_none {opened left : Nat} {tokens : List PlacedToken}
    (h : openBehind opened (bare tokens) = some left) : afterParenthesis (opened + 1) tokens = none := by
  induction tokens generalizing opened with
  | nil => rfl
  | cons place rest ih =>
    rw [bare, List.map_cons, openBehind_cons] at h
    obtain ⟨next, hnext, hrest⟩ := Option.bind_eq_some_iff.1 h
    unfold Token.openBehind at hnext
    split at hnext
    · -- one more is open
      rename_i hplace
      cases hnext
      have hstep : afterParenthesis (opened + 1) (place :: rest) = afterParenthesis (opened + 1 + 1) rest := by
        simp only [afterParenthesis, hplace]
      rw [hstep, ih hrest]
    · rename_i hplace
      split at hnext
      · cases hnext
      · -- one is closed, but not the outermost
        cases hnext
        have hstep : afterParenthesis (opened + 1) (place :: rest) = afterParenthesis (opened - 1 + 1) rest := by
          simp only [afterParenthesis, hplace]
          rw [if_neg (by omega), Nat.add_sub_cancel, Nat.sub_add_cancel (by omega)]
        rw [hstep, ih hrest]
    · rename_i hopen hclose
      cases hnext
      have hstep : afterParenthesis (opened + 1) (place :: rest) = afterParenthesis (opened + 1) rest := by
        rw [afterParenthesis]
        split
        · rename_i hplace
          exact absurd hplace hopen
        · rename_i hplace
          exact absurd hplace hclose
        · rfl
      rw [hstep, ih hrest]

/-- Every operator reaches as far as its level. -/
theorem reach_pos_of_lookup : ∀ level ∈ operatorLevels, ∀ mark, (level.lookup mark).isSome → 0 < mark.reach := by
  intro level hlevel mark hmark
  cases mark with
  | closeParen | openBrace | closeBrace | comma | semicolon | colon | arrow | not =>
    simp only [operatorLevels, List.mem_cons, List.not_mem_nil, or_false] at hlevel
    rcases hlevel with rfl | rfl | rfl | rfl | rfl | rfl | rfl <;> cases hmark
  | _ => decide

/-- A primary is an expression where nothing goes on with it. -/
theorem reads_expression_of_primary {rules : Rules} {tokens rest : List PlacedToken} {tree : Expression}
    (hplain : BeginsPlainly tokens) (hstarts : startsArrowFunction tokens = false)
    (hprimary : Reads rules.primary tokens tree rest) (hrest : reach rest = 0) : Reads rules.expression tokens tree rest := by
  have hother {mark : Mark} (hmark : 0 < mark.reach) : (bare rest).head? ≠ some (.mark mark) :=
    head?_ne_of_reach (by omega)
  have hunary : Reads rules.unary tokens tree rest := by
    -- Nothing of any reach follows, so each layer of operators finds its first operand alone.
    intro depth
    rw [hplain.run_unary]
    exact Leads.bind hprimary (.bind (Reads.rounds rest) (reads_suffixes (by omega))) depth
  have hoperators (levels : List (List Joiner)) (hlevels : levels ⊆ operatorLevels) :
      Reads (rules.operators levels) tokens tree rest := by
    induction levels with
    | nil => exact .bind hunary (.bind (Reads.eat_other (hother (by decide))) (.refl _ _))
    | cons level tighter ih =>
      obtain ⟨hlevel, htighter⟩ := List.cons_subset.1 hlevels
      refine .bind (ih htighter) (.bind (Reads.rounds rest) (reads_chain ?_))
      cases hnext : (bare rest).head? with
      | none => rfl
      | some token =>
        cases token with
        | mark mark =>
          refine Option.not_isSome_iff_eq_none.1 fun hjoin => ?_
          exact hother (reach_pos_of_lookup level hlevel mark hjoin) hnext
        | _ => rfl
  have hconditional : Reads rules.conditional tokens tree rest :=
    .bind (hoperators operatorLevels (List.Subset.refl _)) (.bind (Reads.eat_other (hother (by decide))) (.refl _ _))
  have hassigned : Rules.assignmentOperator? (bare rest).head? = none := by
    refine Option.eq_none_iff_forall_ne_some.2 fun operator hoperator => ?_
    obtain ⟨mark, hnext, hmark⟩ := assignmentOperator?_eq_some_iff.1 hoperator
    exact hother (by rw [hmark.reach]; decide) hnext
  have harrow : Reads rules.arrowFunction? tokens none tokens := .of_run (hplain.run_arrowFunction hstarts rules)
  refine .bind harrow (.bind hconditional (.bind (Reads.peek rest) ?_))
  rw [hassigned]
  exact .refl _ _

section

variable {opening closing : PlacedToken} (hopening : opening.token = .mark .openParen)
variable {behind : List PlacedToken} {rules : Rules} {tree : Expression}
include hopening

theorem beginsPlainly_opening : BeginsPlainly (opening :: behind) := by
  unfold BeginsPlainly
  rw [bare, List.map_cons, List.head?_cons, hopening]
  exact .openParen

/-- What is read up to the last parenthesis is read with both parentheses, and nothing goes on behind them. -/
theorem reads_enclosed (hclosing : closing.token = .mark .closeParen)
    (hstarts : startsArrowFunction (opening :: behind) = false)
    (h : Reads rules.assignment behind tree [closing]) : Reads rules.expression (opening :: behind) tree [] := by
  have hprimary : Reads rules.primary (opening :: behind) tree [] := by
    refine .bind (Reads.peek _) ?_
    rw [bare, List.map_cons, List.head?_cons, hopening]
    refine .bind (Reads.advance opening behind) (.bind h ?_)
    rw [← hclosing]
    exact .bind (Reads.expect closing []) (.refl _ _)
  exact reads_expression_of_primary (beginsPlainly_opening hopening) hstarts hprimary rfl

end

/-- Whether the nesting cap has stopped the reader. -/
def isTooDeep {α : Type} : Except SyntaxFault α → Bool
  | .error (.misplaced .tooDeep _) => true
  | _ => false

theorem isTooDeep_parseTokens {tokens : List PlacedToken} {found : Option PlacedToken}
    (h : grammar.assignment.run ⟨0, tokens⟩ = .error (.misplaced .tooDeep found)) :
    isTooDeep (parseTokens tokens) = true := by
  unfold parseTokens
  rw [run_wholeExpression, h]
  rfl

section

variable {tokens behind : List PlacedToken} {opening closing : PlacedToken}

/-- What one of two readers that go abreast reads from the tokens alone, the other one reads in front of the closing
parenthesis, and leaves as much. -/
theorem Abreast.reads {α : Type} {x y : Parse α} {taken : α → Nat} (h : ∀ bound, Abreast false Anyhow bound taken x y)
    {opened closed : Nat} (hy : Balanced opened closed y) {rest left left' : List PlacedToken}
    (hfront : InFront tokens (rest ++ left')) (hleft : left'.length = left.length + 1) {a : α} {depth depth' : Nat}
    (hx : x.run ⟨depth, tokens⟩ = .ok (a, ⟨depth', left⟩)) : Reads y (rest ++ left') a left' := by
  intro depth''
  have hrelated := (h _).run hfront trivial (Nat.lt_succ_self _) depth depth''
  rw [hx] at hrelated
  generalize hrun : y.run ⟨depth'', rest ++ left'⟩ = outcome at hrelated
  cases hrelated with
  | deep hdeep =>
    rcases hdeep with hdeep | hdeep
    · cases hdeep
    · exact .inr ⟨_, hdeep⟩
  | same _ hrest =>
    -- what is left is determined by how much it is
    obtain ⟨taken, htaken, -⟩ := hy _ _ _ _ _ hrun
    obtain ⟨-, hsame⟩ := List.append_inj' htaken (hleft.trans hrest.length_eq.symm)
    rw [hsame]
    exact .inl ⟨_, rfl⟩
  | ended hended => cases (hended _ _ rfl).1

/-- What cannot be read from tokens with matched parentheses cannot be read up to their closing parenthesis. -/
theorem fails_behind (hfront : InFront tokens behind) (hmatched : Matched (bare tokens))
    (hcap : isTooDeep (parseTokens tokens) = false) (hnone : ∀ tree, parseTokens tokens ≠ .ok tree) (levels : Nat) :
    Fails (do
      let inner ← (rulesAt levels).assignment
      expect (.mark .closeParen)
      return inner) behind := by
  intro depth'
  have hrelated := ((goAbreast_rulesAt (maxNesting + 1) levels).assignment _).run hfront trivial
    (Nat.lt_succ_self _) 0 depth'
  generalize hx : (rulesAt (maxNesting + 1)).assignment.run ⟨0, tokens⟩ = outcome at hrelated
  rw [run_bind]
  generalize (rulesAt levels).assignment.run ⟨depth', behind⟩ = outcome' at hrelated
  cases hrelated with
  | deep hdeep =>
    rcases hdeep with hdeep | hdeep
    · cases (isTooDeep_parseTokens (hx.trans hdeep)).symm.trans hcap
    · rw [hdeep]
      exact ⟨_, rfl⟩
  | same _ hrest =>
    cases hrest with
    | closing => exact absurd (parseTokens_eq_ok_iff.2 ⟨_, hx⟩) (hnone _)
    | @cons place place' rest rest' hplace hrest =>
      have hother : (bare (place' :: rest')).head? ≠ some (.mark .closeParen) := by
        intro hclose
        -- matched tokens do not close a parenthesis behind matched ones
        obtain ⟨taken, rfl, htaken⟩ := (balanced_rulesAt _).assignment _ _ _ _ _ hx
        have hplace' : place.token = .mark .closeParen := hplace.symm.trans (Option.some.inj hclose)
        unfold Matched at hmatched
        rw [bare, List.map_append, openBehind_append, htaken, List.map_cons, hplace'] at hmatched
        cases hmatched
      dsimp only
      rw [run_bind, Parse.expect, run_bind, run_eat, if_neg hother]
      exact ⟨_, rfl⟩
  | ended _ hended =>
    cases outcome' with
    | error fault => exact ⟨fault, rfl⟩
    | ok p =>
      obtain ⟨inner, depth, rest⟩ := p
      obtain rfl : rest = [] := (hended _ _ rfl).2
      exact ⟨_, rfl⟩

end

section

variable {tokens behind : List PlacedToken} {opening closing : PlacedToken}
  (hopening : opening.token = .mark .openParen)

/-- No arrow function begins with the parenthesis in front of matched ones. -/
theorem startsArrowFunction_enclosed (hfront : InFront tokens behind) (hmatched : Matched (bare tokens)) :
    startsArrowFunction (opening :: behind) = false := by
  have hafter := Abreast.arrow_afterParenthesis hfront 1
  rw [afterParenthesis_eq_none hmatched] at hafter
  exact Bool.and_eq_false_imp.2 fun _ => decide_eq_false fun harrow => nomatch hafter.1 harrow

include hopening

/-- An expression that is read up to the last parenthesis is read, or the nesting is too deep. -/
theorem parseTokens_of_reads (hclosing : closing.token = .mark .closeParen)
    (hstarts : startsArrowFunction (opening :: behind) = false) {tree : Expression}
    (h : Reads (rulesAt maxNesting).assignment behind tree [closing]) :
    parseTokens (opening :: behind) = .ok tree ∨ isTooDeep (parseTokens (opening :: behind)) = true := by
  rcases (reads_enclosed hopening hclosing hstarts h).nested 0 with ⟨depth', hrun⟩ | ⟨found, hdeep⟩
  · exact .inl (parseTokens_eq_ok_iff.2 ⟨depth', hrun⟩)
  · exact .inr (isTooDeep_parseTokens hdeep)

/-- Behind the parenthesis there has to be an expression and another parenthesis. -/
theorem parseTokens_ne_of_fails (hstarts : startsArrowFunction (opening :: behind) = false)
    (h : Fails (do
      let inner ← (rulesAt maxNesting).assignment
      expect (.mark .closeParen)
      return inner) behind) (tree : Expression) : parseTokens (opening :: behind) ≠ .ok tree := by
  intro hread
  have hprimary : Fails (rulesAt maxNesting).primary (opening :: behind) := by
    refine .peek ?_
    rw [bare, List.map_cons, List.head?_cons, hopening]
    exact fun depth => h depth
  obtain ⟨fault, hfault⟩ := (hprimary.expression (beginsPlainly_opening hopening) hstarts).nested 0
  obtain ⟨depth, hrun⟩ := parseTokens_eq_ok_iff.1 hread
  cases hfault.symm.trans hrun

end

/-- Tokens with matched parentheses are read as the same expression without and with parentheses around them,
the nesting cap aside. -/
theorem parseTokens_enclosed {tokens tokens' : List PlacedToken}
    (hbare : bare tokens' = .mark .openParen :: (bare tokens ++ [.mark .closeParen]))
    (hmatched : Matched (bare tokens)) (hcap : isTooDeep (parseTokens tokens) = false)
    (hcap' : isTooDeep (parseTokens tokens') = false) (tree : Expression) :
    parseTokens tokens' = .ok tree ↔ parseTokens tokens = .ok tree := by
  obtain ⟨opening, behind, rfl, hopening, hbehind⟩ := List.map_eq_cons_iff.1 hbare
  have hfront : InFront tokens behind := inFront_of_bare hbehind
  have hstarts : startsArrowFunction (opening :: behind) = false := startsArrowFunction_enclosed hfront hmatched
  have hread (tree : Expression) (h : parseTokens tokens = .ok tree) : parseTokens (opening :: behind) = .ok tree := by
    obtain ⟨depth, hrun⟩ := parseTokens_eq_ok_iff.1 h
    obtain ⟨front, last, rfl, -, hlast⟩ := List.map_eq_append_iff.1 hbehind
    obtain ⟨closing, more, rfl, hclosing, hmore⟩ := List.map_eq_cons_iff.1 hlast
    obtain rfl := List.map_eq_nil_iff.1 hmore
    have hinner : Reads (rulesAt maxNesting).assignment (front ++ [closing]) tree [closing] :=
      Abreast.reads (goAbreast_rulesAt (maxNesting + 1) maxNesting).assignment (balanced_rulesAt _).assignment hfront rfl hrun
    exact (parseTokens_of_reads hopening hclosing hstarts hinner).resolve_right (by rw [hcap']; decide)
  refine ⟨fun h => ?_, hread tree⟩
  by_cases hsome : ∃ tree', parseTokens tokens = .ok tree'
  · obtain ⟨tree', h'⟩ := hsome
    rw [hread tree' h'] at h
    rwa [← h]
  · have hinner := fails_behind hfront hmatched hcap (fun tree' h' => hsome ⟨tree', h'⟩) maxNesting
    exact absurd h (parseTokens_ne_of_fails hopening hstarts hinner tree)

/-- What is read as an expression has matched parentheses. -/
theorem matched_of_parseTokens {tokens : List PlacedToken} {tree : Expression} (h : parseTokens tokens = .ok tree) :
    Matched (bare tokens) := by
  obtain ⟨depth, hrun⟩ := parseTokens_eq_ok_iff.1 h
  obtain ⟨taken, htokens, htaken⟩ := (balanced_rulesAt _).assignment _ _ _ _ _ hrun
  rw [List.append_nil] at htokens
  rwa [htokens]

/-! ### Sources that parentheses enclose -/

/-- Whether parentheses around the source are tokens of their own that belong together. -/
def StandsAlone (source : String) : Prop :=
  endsInComment source.toList = false ∧ ∃ tokens, tokensOf source = some tokens ∧ Matched tokens

section

variable {source : String}

/-- Parentheses that enclose a source make no difference to the expression that is read from it. -/
theorem parse_enclosed (h : StandsAlone source) (hcap : isTooDeep (parseExpression source) = false)
    (hcap' : isTooDeep (parseExpression (parenthesised source)) = false) (tree : Expression) :
    parseExpression (parenthesised source) = .ok tree ↔ parseExpression source = .ok tree := by
  obtain ⟨hcomment, tokens, htokens, hmatched⟩ := h
  have htokens' := tokensOf_parenthesised source
  rw [hcomment, if_neg Bool.false_ne_true, htokens] at htokens'
  obtain ⟨placed, hplaced, rfl⟩ := exists_tokenize htokens
  obtain ⟨placed', hplaced', hbare⟩ := exists_tokenize htokens'
  have hparse : parseExpression source = parseTokens placed := by
    rw [parseExpression_eq, hplaced]
    rfl
  have hparse' : parseExpression (parenthesised source) = parseTokens placed' := by
    rw [parseExpression_eq, hplaced']
    rfl
  rw [hparse] at hcap ⊢
  rw [hparse'] at hcap' ⊢
  exact parseTokens_enclosed hbare hmatched hcap hcap' tree

/-- A source with matched parentheses that is an expression in further ones does not end in a comment, where the closing
one would be no token. -/
theorem endsInComment_eq_false {placed : List PlacedToken} (hplaced : tokenize source = .ok placed)
    (hmatched : Matched (bare placed)) {tree : Expression} (h : parseExpression (parenthesised source) = .ok tree) :
    endsInComment source.toList = false := by
  obtain ⟨placed', hplaced', hparse'⟩ := parseExpression_tokens h
  have hmatched' := matched_of_parseTokens hparse'
  have htokens' := tokensOf_parenthesised source
  rw [tokensOf_of_tokenize hplaced', tokensOf_of_tokenize hplaced] at htokens'
  refine Bool.eq_false_iff.2 fun hcomment => ?_
  -- the parenthesis in front stays open
  rw [hcomment, if_pos rfl] at htokens'
  have hbare : bare placed' = .mark .openParen :: bare placed := Option.some.inj htokens'
  rw [hbare] at hmatched'
  have hopen : openBehind 0 (.mark .openParen :: bare placed) = openBehind 1 (bare placed) := rfl
  unfold Matched at hmatched'
  rw [hopen, hmatched.openBehind_eq 1] at hmatched'
  cases hmatched'

/-- A source that parentheses do not enclose is an expression without them or with them, but not both. -/
theorem not_both_of_not_standsAlone (halone : ¬StandsAlone source) {tree tree' : Expression}
    (h : parseExpression source = .ok tree) : parseExpression (parenthesised source) ≠ .ok tree' := by
  intro h'
  obtain ⟨placed, hplaced, hparse⟩ := parseExpression_tokens h
  have hmatched := matched_of_parseTokens hparse
  exact halone ⟨endsInComment_eq_false hplaced hmatched h', _, tokensOf_of_tokenize hplaced, hmatched⟩

/-- A source that the nesting cap does not stop is the same expression without and with parentheses around it
exactly if they enclose it, or it is none in either case. -/
theorem parse_parenthesised_iff (hcap : isTooDeep (parseExpression source) = false)
    (hcap' : isTooDeep (parseExpression (parenthesised source)) = false) :
    (∀ tree, parseExpression (parenthesised source) = .ok tree ↔ parseExpression source = .ok tree) ↔
      StandsAlone source ∨
        ∀ tree, parseExpression source ≠ .ok tree ∧ parseExpression (parenthesised source) ≠ .ok tree := by
  constructor
  · intro hsame
    by_cases halone : StandsAlone source
    · exact .inl halone
    · exact .inr fun tree =>
        ⟨fun h => not_both_of_not_standsAlone halone h ((hsame tree).2 h),
          fun h' => not_both_of_not_standsAlone halone ((hsame tree).1 h') h'⟩
  · rintro (halone | hnone) tree
    · exact parse_enclosed halone hcap hcap' tree
    · exact ⟨fun h' => absurd h' (hnone tree).2, fun h => absurd h (hnone tree).1⟩

end

/-- The parentheses of this source match only those around it. -/
theorem parse_parenthesised_sum : isTooDeep (parseExpression "a) + (b") = false ∧
    isTooDeep (parseExpression (parenthesised "a) + (b")) = false ∧
    (parseExpression (parenthesised "a) + (b")).toOption.isSome = true ∧
    ((∀ tree, parseExpression (parenthesised "a) + (b") = .ok tree ↔ parseExpression "a) + (b" = .ok tree) ↔
      StandsAlone "a) + (b" ∨
        ∀ tree, parseExpression "a) + (b" ≠ .ok tree ∧ parseExpression (parenthesised "a) + (b") ≠ .ok tree) := by
  have hcap : isTooDeep (parseExpression "a) + (b") = false := by decide +kernel
  have hcap' : isTooDeep (parseExpression (parenthesised "a) + (b")) = false := by decide +kernel
  exact ⟨hcap, hcap', by decide +kernel, parse_parenthesised_iff hcap hcap'⟩

/-- A comment at the end of an expression takes the parenthesis. -/
theorem comment_takes_parenthesis : isTooDeep (parseExpression "1 // one") = false ∧
    isTooDeep (parseExpression (parenthesised "1 // one")) = false ∧
    ¬∀ tree, parseExpression (parenthesised "1 // one") = .ok tree ↔ parseExpression "1 // one" = .ok tree := by
  refine ⟨by decide +kernel, by decide +kernel, fun hsame => ?_⟩
  have hread : (parseExpression "1 // one").toOption.isSome = true := by decide +kernel
  have hfault : (parseExpression (parenthesised "1 // one")).toOption.isSome = false := by decide +kernel
  obtain ⟨tree, htree⟩ := Option.isSome_iff_exists.1 hread
  rw [(hsame tree).2 (toOption_eq_some_iff.1 htree)] at hfault
  cases hfault

end SequenceNotation.Script
