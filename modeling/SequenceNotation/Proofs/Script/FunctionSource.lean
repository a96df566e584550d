import SequenceNotation.Proofs.Script.Enclosing

/-!
# The source of a function

The source of a function is read in parentheses first, where a declared function is an expression, and else as a
program.  Both readings give the same function.  Parentheses around any other declaration, and around one with a
semicolon behind it, cannot be read.
-/

namespace SequenceNotation.Script

open Parse

/-! ### Programs that are one declaration -/

/-- Both parts of a sequence that has succeeded have. -/
theorem exists_run_of_bind {α β : Type} {x : Parse α} {f : α → Parse β} {s : ParseState} {r : β × ParseState}
    (h : (x >>= f).run s = .ok r) : ∃ a t, x.run s = .ok (a, t) ∧ (f a).run t = .ok r := by
  rw [run_bind] at h
  split at h
  · rename_i a t hx
    exact ⟨a, t, hx, h⟩
  · cases h

/-- Whatever the reader gives is so. -/
def Gives {α : Type} (P : α → Prop) (x : Parse α) : Prop :=
  ∀ s a t, x.run s = .ok (a, t) → P a

namespace Gives

variable {α β : Type} {P : β → Prop}

theorem pure {b : β} (h : P b) : Gives P (pure b) := by
  rintro _ _ _ ⟨⟩
  exact h

theorem bind {x : Parse α} {f : α → Parse β} (hf : ∀ a, Gives P (f a)) : Gives P (x >>= f) := by
  intro s b t h
  obtain ⟨a, u, -, hfa⟩ := exists_run_of_bind h
  exact hf a u b t hfa

end Gives

/-- The declaration of a name is read: behind the word and the name of a function, or behind another word. -/
inductive ReadsDeclaration (rules : Rules) (name : String) (tree : Expression) : ParseState → ParseState → Prop
  | function {depth : Nat} {word place : PlacedToken} {rest : List PlacedToken} {t : ParseState}
    (hword : word.token = .keyword .functionWord) (hname : place.token = .identifier name)
    (hrest : rules.functionRest.run ⟨depth, rest⟩ = .ok (tree, t)) :
    ReadsDeclaration rules name tree ⟨depth, word :: place :: rest⟩ t
  | other {depth : Nat} {word : PlacedToken} {rest : List PlacedToken} {t : ParseState}
    (hword : word.token = .keyword .letWord ∨ word.token = .keyword .varWord ∨ word.token = .keyword .constWord) :
    ReadsDeclaration rules name tree ⟨depth, word :: rest⟩ t

section

variable {rules : Rules} {name : String} {tree : Expression}

/-- No other statement is a declaration. -/
theorem readsDeclaration_of_bareStatement {s t : ParseState}
    (h : rules.bareStatement.run s = .ok (.declare [(name, some tree)], t)) : ReadsDeclaration rules name tree s t := by
  have hother {x : Parse Statement} {s t : ParseState} (h : x.run s = .ok (.declare [(name, some tree)], t))
      (hx : Gives (· ≠ .declare [(name, some tree)]) x) : ReadsDeclaration rules name tree s t :=
    absurd rfl (hx s _ t h)
  have hexpression {s : ParseState}
      (h : (rules.assignment >>= fun value => pure (Statement.expression value)).run s =
        .ok (.declare [(name, some tree)], t)) : ReadsDeclaration rules name tree s t :=
    hother h (.bind fun _ => .pure nofun)
  obtain ⟨depth, tokens⟩ := s
  cases tokens with
  | nil => exact hexpression h
  | cons word rest =>
    unfold Rules.bareStatement at h
    rw [run_peek_cons] at h
    -- by the first token, in the order of the rule: all but four kinds of statements give another tree
    split at h
    · exact hother h (.bind fun _ => .bind fun _ => .pure nofun)
    · rename_i hword
      exact .other (.inl (Option.some.inj hword))
    · rename_i hword
      exact .other (.inr (.inl (Option.some.inj hword)))
    · rename_i hword
      exact .other (.inr (.inr (Option.some.inj hword)))
    · refine hother h (.bind fun _ => .bind fun _ => .bind fun found => ?_)
      cases found with
      | true => exact .bind fun _ => .pure nofun
      | false => exact .pure nofun
    · exact hother h (.bind fun _ => .bind fun _ => .pure nofun)
    · refine hother h (.bind fun _ => .bind fun next => ?_)
      split
      · exact .pure nofun
      · exact .pure nofun
      · exact .pure nofun
      · exact .bind fun _ => .pure nofun
    · exact hother h (.pure nofun)
    · rename_i hword
      cases rest with
      | nil => exact hexpression h
      | cons place rest =>
        rw [run_look_cons] at h
        split at h
        · rename_i other hname
          rw [run_bind_ok (run_advance word), run_bind_ok (run_advance place)] at h
          obtain ⟨own, u, hrest, h⟩ := exists_run_of_bind h
          cases h
          exact .function (Option.some.inj hword) (Option.some.inj hname) hrest
        · exact hexpression h
    · exact hexpression h

/-- A semicolon may stand behind it. -/
theorem readsDeclaration_of_terminated {s t : ParseState}
    (h : rules.terminated.run s = .ok (.declare [(name, some tree)], t)) :
    ∃ u, ReadsDeclaration rules name tree s u ∧
      (u.tokens = t.tokens ∨ ∃ place, place.token = .mark .semicolon ∧ u.tokens = place :: t.tokens) := by
  unfold Rules.terminated at h
  obtain ⟨statement, u, hstatement, h⟩ := exists_run_of_bind h
  obtain ⟨_, v, hsemicolon, h⟩ := exists_run_of_bind h
  cases h
  refine ⟨u, readsDeclaration_of_bareStatement hstatement, ?_⟩
  obtain ⟨found, w, hfound, hdiscard⟩ := exists_run_of_bind (f := fun _ => pure ()) hsemicolon
  cases hdiscard
  rw [run_eat] at hfound
  split at hfound
  · rename_i hnext
    cases hfound
    obtain ⟨place, rest, htokens, hplace, -⟩ := List.map_eq_cons_iff.1 (List.head?_eq_some_iff.1 hnext).choose_spec
    exact .inr ⟨place, hplace, by rw [htokens]; rfl⟩
  · cases hfound
    exact .inl rfl

end

theorem run_statements (rounds : Nat) (s : ParseState) :
    (statements (rounds + 1)).run s =
      if s.tokens.isEmpty then .ok ([], s)
      else (grammar.statement >>= fun first => do return first :: (← statements rounds)).run s := by
  show (if s.tokens.isEmpty then pure [] else _ : Parse (List Statement)).run s = _
  split <;> rfl

/-- A program of one statement is read as this statement up to the end. -/
theorem exists_statement_of_parseProgram {source : String} {statement : Statement}
    (h : parseProgram source = .ok [statement]) :
    ∃ placed depth, tokenize source = .ok placed ∧ grammar.statement.run ⟨0, placed⟩ = .ok (statement, ⟨depth, []⟩) := by
  unfold parseProgram parseSource at h
  cases hplaced : tokenize source with
  | error fault =>
    rw [hplaced] at h
    cases h
  | ok placed =>
    rw [hplaced] at h
    have hread : ∃ t, (statements (placed.length + 1)).run ⟨0, placed⟩ = .ok ([statement], t) := by
      replace h : ((statements (placed.length + 1)).run ⟨0, placed⟩ >>= fun p => pure p.1) = .ok [statement] := h
      cases hrun : (statements (placed.length + 1)).run ⟨0, placed⟩ with
      | error fault =>
        rw [hrun] at h
        cases h
      | ok p =>
        rw [hrun] at h
        obtain ⟨program, t⟩ := p
        cases h
        exact ⟨t, rfl⟩
    obtain ⟨t, hrun⟩ := hread
    rw [run_statements] at hrun
    cases placed with
    | nil => cases hrun
    | cons place rest =>
      replace hrun := (if_neg (show ¬(place :: rest).isEmpty = true from Bool.false_ne_true)).symm.trans hrun
      obtain ⟨first, u, hfirst, hrun⟩ := exists_run_of_bind hrun
      obtain ⟨more, v, hmore, hrun⟩ := exists_run_of_bind hrun
      cases hrun
      rw [List.length_cons, run_statements] at hmore
      -- There is no second statement, so nothing is left behind the first.
      split at hmore
      · rename_i hempty
        obtain ⟨depth, tokens⟩ := u
        obtain rfl := List.isEmpty_iff.1 hempty
        exact ⟨_, depth, rfl, hfirst⟩
      · obtain ⟨_, _, -, hmore⟩ := exists_run_of_bind hmore
        obtain ⟨_, _, -, hmore⟩ := exists_run_of_bind hmore
        cases hmore

/-- A program that is one declaration has matched parentheses, and is read as the declaration with a semicolon behind
it or with nothing. -/
theorem readsDeclaration_of_parseProgram {source name : String} {tree : Expression}
    (h : parseProgram source = .ok [.declare [(name, some tree)]]) :
    ∃ placed u, tokenize source = .ok placed ∧ Matched (bare placed) ∧
      ReadsDeclaration (rulesAt maxNesting) name tree ⟨1, placed⟩ u ∧
        (bare u.tokens = [] ∨ bare u.tokens = [.mark .semicolon]) := by
  obtain ⟨placed, depth, hplaced, hstatement⟩ := exists_statement_of_parseProgram h
  obtain ⟨taken, htaken, hmatched⟩ := (balanced_rulesAt _).statement _ _ _ _ _ hstatement
  rw [List.append_nil] at htaken
  obtain rfl := htaken
  have hnested : (nested (rulesAt maxNesting).terminated).run ⟨0, placed⟩ = _ := hstatement
  rw [run_nested, if_neg (show ¬maxNesting < 0 + 1 by decide)] at hnested
  split at hnested
  · rename_i statement t hterminated
    obtain ⟨depth', tokens⟩ := t
    cases hnested
    obtain ⟨u, hdeclaration, hbehind⟩ := readsDeclaration_of_terminated hterminated
    refine ⟨placed, u, hplaced, hmatched, hdeclaration, ?_⟩
    rcases hbehind with hnothing | ⟨place, hplace, hsemicolon⟩
    · exact .inl (by rw [hnothing]; rfl)
    · exact .inr (by rw [hsemicolon, bare, List.map_cons, hplace]; rfl)
  · cases hnested

/-! ### Declarations in parentheses -/

section

variable {word place : PlacedToken} {rest left : List PlacedToken} {rules : Rules} {tree : Expression}

theorem beginsPlainly_word {keyword : Keyword} (hword : word.token = .keyword keyword) (hother : keyword ≠ .typeofWord) :
    BeginsPlainly (word :: rest) ∧ startsArrowFunction (word :: rest) = false := by
  refine ⟨?_, ?_⟩
  · unfold BeginsPlainly
    rw [bare, List.map_cons, List.head?_cons, hword]
    exact .word hother
  · unfold startsArrowFunction
    dsimp only
    rw [hword]
    rfl

/-- A function with a name is an expression. -/
theorem reads_function {name : String} (hword : word.token = .keyword .functionWord)
    (hname : place.token = .identifier name) (hrest : Reads rules.functionRest rest tree left) (hleft : reach left = 0) :
    Reads rules.expression (word :: place :: rest) tree left := by
  have hprimary : Reads rules.primary (word :: place :: rest) tree left := by
    refine .bind (Reads.peek _) ?_
    rw [bare, List.map_cons, List.head?_cons, hword]
    refine .bind (Reads.advance word _) (.bind (Reads.peek _) ?_)
    rw [bare, List.map_cons, List.head?_cons, hname]
    exact .bind (Reads.advance place rest) hrest
  obtain ⟨hplain, hstarts⟩ := @beginsPlainly_word word (place :: rest) _ hword (by decide)
  exact reads_expression_of_primary hplain hstarts hprimary hleft

/-- No expression begins with the word of another declaration. -/
theorem fails_declaration
    (hword : word.token = .keyword .letWord ∨ word.token = .keyword .varWord ∨ word.token = .keyword .constWord) :
    Fails rules.expression (word :: rest) := by
  have hprimary : Fails rules.primary (word :: rest) := by
    refine .peek ?_
    rcases hword with hword | hword | hword <;> rw [bare, List.map_cons, List.head?_cons, hword] <;> exact .complain _
  have hplain : BeginsPlainly (word :: rest) ∧ startsArrowFunction (word :: rest) = false := by
    rcases hword with hword | hword | hword <;> exact beginsPlainly_word hword (by decide)
  exact hprimary.expression hplain.1 hplain.2

end

/-- A function is read likewise where a closing parenthesis stands behind, which is left. -/
theorem exists_reads_function {word place : PlacedToken} {rest left behind : List PlacedToken} {name : String}
    {tree : Expression} {depth depth' : Nat} (hword : word.token = .keyword .functionWord)
    (hname : place.token = .identifier name)
    (hrest : (rulesAt maxNesting).functionRest.run ⟨depth, rest⟩ = .ok (tree, ⟨depth', left⟩))
    (hbehind : bare behind = bare (word :: place :: rest) ++ [.mark .closeParen]) :
    ∃ left', bare left' = bare left ++ [.mark .closeParen] ∧
      (reach left' = 0 → Reads (rulesAt maxNesting).assignment behind tree left') := by
  have hfront : InFront (word :: place :: rest) behind := inFront_of_bare hbehind
  obtain ⟨taken, rfl, -⟩ := (balanced_rulesAt _).functionRest _ _ _ _ _ hrest
  rw [bare, bare, List.map_cons, List.map_cons, List.map_append, List.cons_append, List.cons_append,
    List.append_assoc] at hbehind
  obtain ⟨word', _, rfl, hword', hbehindWord⟩ := List.map_eq_cons_iff.1 hbehind
  obtain ⟨place', _, rfl, hplace', hbehindName⟩ := List.map_eq_cons_iff.1 hbehindWord
  obtain ⟨more, left', rfl, -, hleft'⟩ := List.map_eq_append_iff.1 hbehindName
  have hrestFront : InFront (taken ++ left) (more ++ left') := by
    cases hfront with
    | cons _ hfront =>
      cases hfront with
      | cons _ hfront => exact hfront
  have hlength : left'.length = left.length + 1 := by
    have hlengths := congrArg List.length hleft'
    rwa [List.length_append, List.length_map, List.length_map] at hlengths
  have hreads : Reads (rulesAt 99).functionRest (more ++ left') tree left' :=
    Abreast.reads (goAbreast_rulesAt maxNesting 99).functionRest (balanced_rulesAt 99).functionRest hrestFront hlength hrest
  exact ⟨left', hleft', fun hreach =>
    (reads_function (hword'.trans hword) (hplace'.trans hname) hreads hreach).nested⟩

/-- In parentheses a function is read as it is without them, if nothing follows it, and else not at all. -/
theorem parseTokens_function {opening word place : PlacedToken} {rest left behind : List PlacedToken} {name : String}
    {tree tree' : Expression} {depth depth' : Nat} (hopening : opening.token = .mark .openParen)
    (hword : word.token = .keyword .functionWord) (hname : place.token = .identifier name)
    (hrest : (rulesAt maxNesting).functionRest.run ⟨depth, rest⟩ = .ok (tree, ⟨depth', left⟩))
    (hleft : bare left = [] ∨ bare left = [.mark .semicolon])
    (hbehind : bare behind = bare (word :: place :: rest) ++ [.mark .closeParen])
    (hstarts : startsArrowFunction (opening :: behind) = false) (h : parseTokens (opening :: behind) = .ok tree') :
    tree' = tree := by
  obtain ⟨left', hleft', hinner⟩ := exists_reads_function hword hname hrest hbehind
  rcases hleft with hnothing | hsemicolon
  · -- the closing parenthesis is all that follows
    rw [hnothing] at hleft'
    obtain ⟨closing, more, rfl, hclosing, hnil⟩ := List.map_eq_cons_iff.1 hleft'
    obtain rfl := List.map_eq_nil_iff.1 hnil
    rcases parseTokens_of_reads hopening hclosing hstarts (hinner (reach_cons hclosing [])) with hread | hdeep
    · exact Except.ok.inj (h.symm.trans hread)
    · rw [h] at hdeep
      cases hdeep
  · -- the semicolon stands where the closing parenthesis should
    rw [hsemicolon] at hleft'
    obtain ⟨semicolon, more, rfl, hsemicolon, -⟩ := List.map_eq_cons_iff.1 hleft'
    have hexpect : Fails (expect (.mark .closeParen)) (semicolon :: more) := by
      intro depth
      unfold expect
      rw [run_bind, run_eat, bare, List.map_cons, List.head?_cons, hsemicolon]
      exact ⟨_, rfl⟩
    have hfails := Fails.behind (f := fun inner => expect (.mark .closeParen) >>= fun _ => pure inner)
      (hinner (reach_cons hsemicolon more)) (hexpect.bind _)
    exact absurd h (parseTokens_ne_of_fails hopening hstarts hfails tree')

/-- A declaration in parentheses is read as its value, if at all. -/
theorem parse_parenthesised_declaration {source name : String} {tree tree' : Expression}
    (h : parseProgram source = .ok [.declare [(name, some tree)]])
    (h' : parseExpression (parenthesised source) = .ok tree') : tree' = tree := by
  obtain ⟨placed, u, hplaced, hmatched, hdeclaration, hleft⟩ := readsDeclaration_of_parseProgram h
  obtain ⟨placed', hplaced', hparse'⟩ := parseExpression_tokens h'
  have htokens' := tokensOf_parenthesised source
  rw [endsInComment_eq_false hplaced hmatched h', if_neg Bool.false_ne_true, tokensOf_of_tokenize hplaced,
    tokensOf_of_tokenize hplaced'] at htokens'
  obtain ⟨opening, behind, rfl, hopening, hbehind⟩ := List.map_eq_cons_iff.1 (Option.some.inj htokens')
  have hfront : InFront placed behind := inFront_of_bare hbehind
  have hstarts : startsArrowFunction (opening :: behind) = false := startsArrowFunction_enclosed hfront hmatched
  cases hdeclaration with
  | function hword hname hrest => exact parseTokens_function hopening hword hname hrest hleft hbehind hstarts hparse'
  | other hword =>
    obtain ⟨word', rest', rfl, hword', -⟩ := List.map_eq_cons_iff.1 hbehind
    have hexpression : Fails (rulesAt 99).expression (word' :: rest') := fails_declaration (by rwa [hword'])
    exact absurd hparse' (parseTokens_ne_of_fails hopening hstarts (hexpression.nested.bind _) tree')

end SequenceNotation.Script
