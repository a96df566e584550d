import SequenceNotation.Proofs.Script.Reader

/-!
# Reading in front of a closing parenthesis

A rule reads the same from tokens and from the same tokens with a closing parenthesis behind them, unless
it gets to that parenthesis.  Where it does, it complains about the end of the tokens without it.  The one
rule that stops at the end of the tokens, but not in front of the parenthesis, is that of `return`; the
block around it complains in its place.
-/

namespace SequenceNotation.Script

open Parse

/-! ### Rules that fail -/

/-- From the tokens the reader complains, at every depth. -/
def Fails {α : Type} (x : Parse α) (tokens : List PlacedToken) : Prop :=
  ∀ depth, ∃ fault, x.run ⟨depth, tokens⟩ = .error fault

namespace Fails

variable {α β : Type} {x : Parse α} {tokens : List PlacedToken}

theorem complain (complaint : Complaint) : Fails (complain complaint : Parse α) tokens :=
  fun _ => ⟨_, rfl⟩

theorem bind (h : Fails x tokens) (f : α → Parse β) : Fails (x >>= f) tokens := by
  intro depth
  obtain ⟨fault, hrun⟩ := h depth
  rw [run_bind, hrun]
  exact ⟨fault, rfl⟩

/-- What follows an expression that has been read complains. -/
theorem behind {a : α} {rest : List PlacedToken} {f : α → Parse β} (h : Reads x tokens a rest) (hf : Fails (f a) rest) :
    Fails (x >>= f) tokens := by
  intro depth
  rw [run_bind]
  rcases h depth with ⟨depth', hrun⟩ | ⟨found, hdeep⟩
  · rw [hrun]
    exact hf depth'
  · rw [hdeep]
    exact ⟨_, rfl⟩

theorem peek {f : Option Token → Parse β} (h : Fails (f (bare tokens).head?) tokens) :
    Fails (peek? 0 >>= f) tokens := by
  intro depth
  rw [run_bind, run_peek]
  exact h depth

theorem nested (h : Fails x tokens) : Fails (nested x) tokens := by
  intro depth
  rw [run_nested]
  split
  · exact ⟨_, rfl⟩
  · obtain ⟨fault, hrun⟩ := h (depth + 1)
    rw [hrun]
    exact ⟨fault, rfl⟩

end Fails

/-- What is next if neither a name nor an operator stands in front. -/
inductive PlainStart : Option Token → Prop
  | none : PlainStart none
  | openParen : PlainStart (some (.mark .openParen))
  | closeParen : PlainStart (some (.mark .closeParen))
  | word {word : Keyword} (hword : word ≠ .typeofWord) : PlainStart (some (.keyword word))

/-- The next token, if there is one, is a parenthesis or a reserved word other than an operator. -/
def BeginsPlainly (tokens : List PlacedToken) : Prop :=
  PlainStart (bare tokens).head?

theorem BeginsPlainly.run_arrowFunction {tokens : List PlacedToken} (h : BeginsPlainly tokens)
    (hstarts : startsArrowFunction tokens = false) (rules : Rules) (depth : Nat) :
    rules.arrowFunction?.run ⟨depth, tokens⟩ = .ok (none, ⟨depth, tokens⟩) := by
  have hnone (other : Parse (Option Expression)) : (if startsArrowFunction tokens then other else pure none).run
      ⟨depth, tokens⟩ = .ok (none, ⟨depth, tokens⟩) := by
    rw [hstarts]
    rfl
  unfold Rules.arrowFunction?
  rw [run_bind, run_peek]
  dsimp only
  rw [run_bind, run_peek?]
  unfold BeginsPlainly at h
  generalize (bare tokens).head? = next at h
  cases h <;> exact hnone _

/-- Only a primary can begin there. -/
theorem BeginsPlainly.run_unary {rules : Rules} {tokens : List PlacedToken} (h : BeginsPlainly tokens) (depth : Nat) :
    rules.unary.run ⟨depth, tokens⟩ =
      (rules.primary >>= fun expression => do rules.suffixes (← rounds) expression).run ⟨depth, tokens⟩ := by
  unfold Rules.unary
  rw [run_bind, run_peek]
  unfold BeginsPlainly at h
  dsimp only
  generalize (bare tokens).head? = next at h
  cases h with
  | @word word hword =>
    cases word with
    | typeofWord => exact absurd rfl hword
    | _ => rfl
  | _ => rfl

namespace Fails

variable {rules : Rules} {tokens : List PlacedToken}

/-- Where no primary begins and no operator stands in front of one, no operand begins. -/
theorem operators (h : Fails rules.primary tokens) (hnext : BeginsPlainly tokens) (levels : List (List Joiner)) :
    Fails (rules.operators levels) tokens := by
  have hunary : Fails rules.unary tokens := by
    intro depth
    rw [hnext.run_unary]
    exact h.bind _ depth
  induction levels with
  | nil => exact hunary.bind _
  | cons level tighter ih => exact ih.bind _

theorem expression (h : Fails rules.primary tokens) (hnext : BeginsPlainly tokens)
    (hstarts : startsArrowFunction tokens = false) : Fails rules.expression tokens := by
  have hconditional : Fails rules.conditional tokens := (h.operators hnext operatorLevels).bind _
  intro depth
  unfold Rules.expression
  rw [run_bind, hnext.run_arrowFunction hstarts]
  exact hconditional.bind _ depth

end Fails

/-- Tokens at which no expression begins: none, or a closing parenthesis in front. -/
def Closed (tokens : List PlacedToken) : Prop :=
  (bare tokens).head? = none ∨ (bare tokens).head? = some (.mark .closeParen)

theorem Closed.nil : Closed [] :=
  .inl rfl

theorem Closed.cons {place : PlacedToken} (h : place.token = .mark .closeParen) (rest : List PlacedToken) :
    Closed (place :: rest) :=
  .inr (congrArg some h)

namespace Closed

variable {tokens : List PlacedToken} (h : Closed tokens)
include h

theorem beginsPlainly : BeginsPlainly tokens := by
  unfold BeginsPlainly
  rcases h with h | h <;> rw [h]
  · exact .none
  · exact .closeParen

theorem startsArrowFunction_eq : startsArrowFunction tokens = false := by
  cases tokens with
  | nil => rfl
  | cons place rest =>
    have hother : place.token ≠ .mark .openParen := by
      intro hopen
      rcases h with h | h
      · cases h
      · cases (Option.some.inj h).symm.trans hopen
    exact Bool.and_eq_false_imp.2 fun hopen => absurd (of_decide_eq_true hopen) hother

theorem expression (rules : Rules) : Fails rules.expression tokens := by
  have hprimary : Fails rules.primary tokens := by
    refine .peek ?_
    rcases h with h | h <;> rw [h] <;> exact .complain _
  exact hprimary.expression h.beginsPlainly h.startsArrowFunction_eq

theorem bareStatement {rules : Rules} (hassignment : Fails rules.assignment tokens) :
    Fails rules.bareStatement tokens := by
  have hexpression := hassignment.bind fun expression => return Statement.expression expression
  refine .peek ?_
  rcases h with h | h <;> rw [h] <;> exact hexpression

end Closed

/-- No expression and no statement begins there, at any level. -/
theorem Closed.fails_rulesAt {tokens : List PlacedToken} (h : Closed tokens) (levels : Nat) :
    Fails (rulesAt levels).assignment tokens ∧ Fails (rulesAt levels).statement tokens := by
  induction levels with
  | zero => exact ⟨.complain _, .complain _⟩
  | succ levels ih => exact ⟨.nested (h.expression _), .nested ((h.bareStatement ih.1).bind _)⟩

/-! ### Two runs -/

section

variable {α β : Type}

/-- The outcome is a fault or, where that is allowed, leaves no tokens. -/
def Ended (allowed : Bool) (outcome : Except SyntaxFault (α × ParseState)) : Prop :=
  ∀ a state, outcome = .ok (a, state) → allowed = true ∧ state.tokens = []

/-- At the end of the tokens the reader stays there. -/
def Quiet (x : Parse α) : Prop :=
  ∀ depth, Ended true (x.run ⟨depth, []⟩)

theorem Fails.ended {x : Parse α} {tokens : List PlacedToken} (h : Fails x tokens) {allowed : Bool} (depth : Nat) :
    Ended allowed (x.run ⟨depth, tokens⟩) := by
  intro a state hrun
  obtain ⟨fault, hfault⟩ := h depth
  cases hfault.symm.trans hrun

theorem Ended.bind {allowed allowed' : Bool} {x : Parse α} {f : α → Parse β} {s : ParseState}
    (h : Ended allowed (x.run s)) (hf : allowed = true → ∀ a depth, Ended allowed' ((f a).run ⟨depth, []⟩)) :
    Ended allowed' ((x >>= f).run s) := by
  intro b state hrun
  rw [run_bind] at hrun
  split at hrun
  · rename_i a t hx
    obtain ⟨hallowed, htokens⟩ := h a t hx
    obtain ⟨depth, tokens⟩ := t
    obtain rfl : tokens = [] := htokens
    exact hf hallowed a depth b state hrun
  · cases hrun

theorem Ended.nested {allowed : Bool} {x : Parse α} {s : ParseState}
    (h : Ended allowed (x.run { s with depth := s.depth + 1 })) : Ended allowed ((nested x).run s) := by
  intro a state hrun
  rw [run_nested] at hrun
  split at hrun
  · cases hrun
  · split at hrun
    · rename_i b t hx
      cases hrun
      exact h _ t hx
    · cases hrun

theorem Quiet.bind {x : Parse α} {f : α → Parse β} (h : Quiet x) (hf : ∀ a, Quiet (f a)) :
    Quiet (x >>= f) :=
  fun depth => (h depth).bind fun _ => hf

theorem quiet_pure (a : α) : Quiet (pure a) := by
  intro depth b state hrun
  cases hrun
  exact ⟨rfl, rfl⟩

/-- At the end there is no token to take. -/
theorem quiet_advance (f : Unit → Parse β) : Quiet (advance >>= f) :=
  Fails.ended fun _ => ⟨_, rfl⟩

theorem Quiet.of_yields {x : Parse α} {Q : List Token → α → Prop} (h : Yields x [] Q) : Quiet x := by
  intro depth a state hrun
  obtain ⟨taken, htaken, -⟩ := h depth a state.depth state.tokens hrun
  exact ⟨rfl, (List.append_eq_nil_iff.1 htaken.symm).2⟩

/-- Tokens, and the same ones in front of a closing parenthesis.  Their places may differ. -/
inductive InFront : List PlacedToken → List PlacedToken → Prop
  | closing {place} (h : place.token = .mark .closeParen) : InFront [] [place]
  | cons {place place' rest rest'} (h : place'.token = place.token) (hrest : InFront rest rest') :
    InFront (place :: rest) (place' :: rest')

theorem InFront.length_eq {tokens tokens' : List PlacedToken} (h : InFront tokens tokens') :
    tokens'.length = tokens.length + 1 := by
  induction h with
  | closing _ => rfl
  | cons _ _ ih => rw [List.length_cons, List.length_cons, ih]

theorem inFront_of_bare {tokens tokens' : List PlacedToken} (h : bare tokens' = bare tokens ++ [.mark .closeParen]) :
    InFront tokens tokens' := by
  induction tokens generalizing tokens' with
  | nil =>
    obtain ⟨place, rest, rfl, hplace, hrest⟩ := List.map_eq_cons_iff.1 h
    obtain rfl := List.map_eq_nil_iff.1 hrest
    exact .closing hplace
  | cons place rest ih =>
    obtain ⟨place', rest', rfl, hplace, hrest⟩ := List.map_eq_cons_iff.1 h
    exact .cons hplace (ih hrest)

/-- How two runs end, the second in front of the parenthesis.  One of them is nested too deep, or they have
the same result and the same tokens left, or both are over.  The first of these is over when it has complained, or,
if it is loose, at the end of its tokens.  The second may have taken the parenthesis. -/
inductive Related (loose : Bool) (length : Nat) (taken : α → Nat) :
    Except SyntaxFault (α × ParseState) → Except SyntaxFault (α × ParseState) → Prop
  | deep {outcome outcome' found} (h : outcome = .error (.misplaced .tooDeep found) ∨
      outcome' = .error (.misplaced .tooDeep found)) : Related loose length taken outcome outcome'
  | same {a depth depth' rest rest'} (h : rest.length + taken a ≤ length) (hrest : InFront rest rest') :
    Related loose length taken (.ok (a, ⟨depth, rest⟩)) (.ok (a, ⟨depth', rest'⟩))
  | ended {outcome outcome'} (h : Ended loose outcome) (h' : Ended true outcome') :
    Related loose length taken outcome outcome'

theorem Related.mono {loose loose' : Bool} {length length' : Nat}
    {taken taken' : α → Nat} {outcome outcome' : Except SyntaxFault (α × ParseState)}
    (h : Related loose length taken outcome outcome') (hloose : loose = true → loose' = true)
    (htaken : ∀ a, length + taken' a ≤ length' + taken a) :
    Related loose' length' taken' outcome outcome' := by
  cases h with
  | deep h => exact .deep h
  | @same a _ _ _ _ h hrest =>
    have := htaken a
    exact .same (by omega) hrest
  | ended h h' => exact .ended (fun a state hrun => ⟨hloose (h a state hrun).1, (h a state hrun).2⟩) h'

/-- The readers go abreast from fewer than `bound` tokens that begin as `starts` says, the second in front of
the parenthesis, and take at least as many tokens as `taken` says. -/
structure Abreast (loose : Bool) (starts : List PlacedToken → Prop) (bound : Nat)
    (taken : α → Nat) (x y : Parse α) : Prop where
  quiet : Quiet x
  quiet' : Quiet y
  run : ∀ {tokens tokens'}, InFront tokens tokens' → starts tokens → tokens.length < bound → ∀ depth depth',
    Related loose tokens.length taken (x.run ⟨depth, tokens⟩) (y.run ⟨depth', tokens'⟩)

/-- No condition on the tokens. -/
def Anyhow : List PlacedToken → Prop :=
  fun _ => True

/-- The next token, if there is one. -/
def StartsWith (next : Option Token) : List PlacedToken → Prop :=
  fun tokens => (bare tokens).head? = next

end

namespace Abreast

variable {α β : Type} {loose loose' : Bool} {starts : List PlacedToken → Prop}
variable {bound : Nat} {taken : α → Nat} {x y : Parse α} {f g : α → Parse β} {taken' : β → Nat}

theorem mono {starts' : List PlacedToken → Prop} {taken₁ : α → Nat} (h : Abreast loose starts bound taken x y)
    (hstarts : ∀ tokens, starts' tokens → starts tokens) (hloose : loose = true → loose' = true)
    (htaken : ∀ a, taken₁ a ≤ taken a) : Abreast loose' starts' bound taken₁ x y where
  quiet := h.quiet
  quiet' := h.quiet'
  run hfront hstart hlength depth depth' :=
    (h.run hfront (hstarts _ hstart) hlength depth depth').mono hloose
      fun a => Nat.add_le_add_left (htaken a) _

theorem pure_of_eq {a : α} (h : taken a = 0) :
    Abreast loose starts bound taken (Pure.pure a) (Pure.pure a) where
  quiet := quiet_pure a
  quiet' := quiet_pure a
  run hfront _ _ _ _ := .same (Nat.le_of_eq (by rw [h, Nat.add_zero])) hfront

theorem pure (a : α) : Abreast loose starts bound (fun _ => 0) (Pure.pure a) (Pure.pure a) :=
  pure_of_eq rfl

/-- At the end of the tokens no result is needed from either. -/
theorem of_fails (h : Fails x []) (h' : ∀ {tokens}, Closed tokens → Fails y tokens) :
    Abreast loose (StartsWith none) bound taken x y where
  quiet depth := h.ended depth
  quiet' depth := (h' .nil).ended depth
  run hfront hstarts _ depth depth' := by
    cases hfront with
    | closing hplace => exact .ended (h.ended depth) ((h' (.cons hplace [])).ended depth')
    | cons => cases hstarts

theorem complain (complaint complaint' : Complaint) :
    Abreast loose starts bound taken (complain complaint) (complain complaint') where
  quiet _ := Fails.ended (.complain _) _
  quiet' _ := Fails.ended (.complain _) _
  run _ _ _ _ _ := .ended (Fails.ended (.complain _) _) (Fails.ended (.complain _) _)

theorem tooDeep (h : Quiet x) : Abreast loose starts bound taken (Parse.complain .tooDeep) x where
  quiet _ _ _ hrun := nomatch hrun
  quiet' := h
  run _ _ _ _ _ := .deep (.inl rfl)

theorem tooDeep' (h : Quiet x) : Abreast loose starts bound taken x (Parse.complain .tooDeep) where
  quiet := h
  quiet' _ _ _ hrun := nomatch hrun
  run _ _ _ _ _ := .deep (.inr rfl)

/-- What comes next decides how a loose end goes on. -/
theorem bind_of_ended (h : Abreast loose starts bound taken x y)
    (hf : ∀ a, Abreast loose' Anyhow (bound - taken a) (fun b => taken' b - taken a) (f a) (g a))
    (hend : loose = true → ∀ a depth, Ended loose' ((f a).run ⟨depth, []⟩)) :
    Abreast loose' starts bound taken' (x >>= f) (y >>= g) where
  quiet := h.quiet.bind fun a => (hf a).quiet
  quiet' := h.quiet'.bind fun a => (hf a).quiet'
  run {tokens tokens'} hfront hstarts hlength depth depth' := by
    have hrun := h.run hfront hstarts hlength depth depth'
    generalize hx : x.run ⟨depth, tokens⟩ = outcome at hrun
    generalize hy : y.run ⟨depth', tokens'⟩ = outcome' at hrun
    cases hrun with
    | deep hdeep =>
      rw [run_bind, run_bind, hx, hy]
      rcases hdeep with hdeep | hdeep <;> rw [hdeep]
      · exact .deep (.inl rfl)
      · exact .deep (.inr rfl)
    | @same a _ _ _ _ htaken hrest =>
      rw [run_bind, run_bind, hx, hy]
      refine ((hf a).run hrest trivial (by omega) _ _).mono id fun b => ?_
      omega
    | ended hended hended' =>
      rw [← hx] at hended
      rw [← hy] at hended'
      exact .ended (hended.bind hend) (hended'.bind fun _ a => (hf a).quiet')

theorem bind (h : Abreast false starts bound taken x y)
    (hf : ∀ a, Abreast loose Anyhow (bound - taken a) (fun b => taken' b - taken a) (f a) (g a)) :
    Abreast loose starts bound taken' (x >>= f) (y >>= g) :=
  h.bind_of_ended hf fun hloose => nomatch hloose

theorem bind_loose (h : Abreast true starts bound taken x y)
    (hf : ∀ a, Abreast true Anyhow (bound - taken a) (fun b => taken' b - taken a) (f a) (g a)) :
    Abreast true starts bound taken' (x >>= f) (y >>= g) :=
  h.bind_of_ended hf fun _ a => (hf a).quiet

/-! #### Parts of readers -/

theorem nested (h : Abreast loose starts bound taken x y) :
    Abreast loose starts bound taken (nested x) (nested y) where
  quiet depth := (h.quiet (depth + 1)).nested
  quiet' depth := (h.quiet' (depth + 1)).nested
  run {tokens tokens'} hfront hstarts hlength depth depth' := by
    -- Either side may be at the cap on its own, as the depths are not compared.
    by_cases hdeep : maxNesting < depth + 1
    · rw [run_nested, if_pos hdeep]
      exact .deep (.inl rfl)
    by_cases hdeep' : maxNesting < depth' + 1
    · rw [run_nested y, if_pos hdeep']
      exact .deep (.inr rfl)
    have hrun := h.run hfront hstarts hlength (depth + 1) (depth' + 1)
    generalize hx : x.run ⟨depth + 1, tokens⟩ = outcome at hrun
    generalize hy : y.run ⟨depth' + 1, tokens'⟩ = outcome' at hrun
    cases hrun with
    | deep h =>
      rw [run_nested, run_nested, if_neg hdeep, if_neg hdeep']
      dsimp only
      rw [hx, hy]
      rcases h with h | h <;> rw [h]
      · exact .deep (.inl rfl)
      · exact .deep (.inr rfl)
    | same htaken hrest =>
      rw [run_nested, run_nested, if_neg hdeep, if_neg hdeep']
      dsimp only
      rw [hx, hy]
      exact .same htaken hrest
    | ended hended hended' =>
      rw [← hx] at hended
      rw [← hy] at hended'
      exact .ended hended.nested hended'.nested

theorem descend {f g : Unit → Parse β} (h : Abreast loose starts bound taken' (f ()) (g ())) :
    Abreast loose starts bound taken' (descend >>= f) (descend >>= g) := by
  have hquiet : Quiet Parse.descend := .of_yields .descend
  refine ⟨hquiet.bind fun _ => h.quiet, hquiet.bind fun _ => h.quiet', fun hfront hstarts hlength depth depth' => ?_⟩
  rw [run_bind, run_bind, run_descend, run_descend]
  by_cases hdeep : maxNesting < depth + 1
  · rw [if_pos hdeep]
    exact .deep (.inl rfl)
  by_cases hdeep' : maxNesting < depth' + 1
  · rw [if_pos hdeep']
    exact .deep (.inr rfl)
  rw [if_neg hdeep, if_neg hdeep']
  exact h.run hfront hstarts hlength _ _

theorem peek {f g : Option Token → Parse β}
    (hquiet : Quiet (g none))
    (hend : Abreast loose (StartsWith none) bound taken' (f none) (g (some (.mark .closeParen))))
    (hnext : ∀ token, Abreast loose (StartsWith (some token)) bound taken' (f (some token)) (g (some token))) :
    Abreast loose Anyhow bound taken' (peek? 0 >>= f) (peek? 0 >>= g) where
  quiet depth := by
    rw [run_bind, run_peek]
    exact hend.quiet depth
  quiet' depth := by
    rw [run_bind, run_peek]
    exact hquiet depth
  run hfront _ hlength depth depth' := by
    cases hfront with
    | closing hplace =>
      rw [run_peek_cons, hplace]
      exact hend.run (.closing hplace) rfl hlength depth depth'
    | cons hplace hrest =>
      rw [run_peek_cons, run_peek_cons, hplace]
      exact (hnext _).run (.cons hplace hrest) rfl hlength depth depth'

theorem peek_next {f g : Option Token → Parse β} {token : Token} (hquiet : Quiet (f none)) (hquiet' : Quiet (g none))
    (h : Abreast loose (StartsWith (some token)) bound taken' (f (some token)) (g (some token))) :
    Abreast loose (StartsWith (some token)) bound taken' (peek? 0 >>= f) (peek? 0 >>= g) where
  quiet depth := by
    rw [run_bind, run_peek]
    exact hquiet depth
  quiet' depth := by
    rw [run_bind, run_peek]
    exact hquiet' depth
  run hfront hstarts hlength depth depth' := by
    have hrun := h.run hfront hstarts hlength depth depth'
    cases hfront with
    | closing => cases hstarts
    | cons hplace =>
      obtain rfl := Option.some.inj hstarts
      rw [run_peek_cons, run_peek_cons, hplace]
      exact hrun

/-- Two tokens in front. -/
def StartsWithTwo (first second : Token) : List PlacedToken → Prop :=
  fun tokens => ∃ place rest, tokens = place :: rest ∧ place.token = first ∧ StartsWith (some second) rest

theorem look {f g : Option Token → Parse β} {first : Token}
    (hquiet : Quiet (g none))
    (hend : Abreast loose (StartsWith (some first)) bound taken' (f none) (g (some (.mark .closeParen))))
    (hnext : ∀ second, Abreast loose (StartsWithTwo first second) bound taken' (f (some second))
      (g (some second))) :
    Abreast loose (StartsWith (some first)) bound taken' (peek? 1 >>= f) (peek? 1 >>= g) where
  quiet depth := by
    rw [run_bind, run_peek?]
    exact hend.quiet depth
  quiet' depth := by
    rw [run_bind, run_peek?]
    exact hquiet depth
  run hfront hstarts hlength depth depth' := by
    have hfirst := hstarts
    cases hfront with
    | closing => cases hstarts
    | cons hplace hrest =>
      obtain rfl := Option.some.inj hfirst
      cases hrest with
      | closing hclosing =>
        rw [run_look_cons, hclosing]
        exact hend.run (.cons hplace (.closing hclosing)) hstarts hlength depth depth'
      | cons hsecond hrest =>
        rw [run_look_cons, run_look_cons, hsecond]
        exact (hnext _).run (.cons hplace (.cons hsecond hrest)) ⟨_, _, rfl, rfl, rfl⟩ hlength depth depth'

theorem advance {f g : Unit → Parse β} {starts' : List PlacedToken → Prop}
    (hstarts : ∀ tokens, starts tokens → ∃ place rest, tokens = place :: rest ∧ starts' rest)
    (h : Abreast loose starts' (bound - 1) (fun b => taken' b - 1) (f ()) (g ())) :
    Abreast loose starts bound taken' (advance >>= f) (advance >>= g) where
  quiet := quiet_advance f
  quiet' := quiet_advance g
  run hfront hstart hlength depth depth' := by
    obtain ⟨place, rest, rfl, hrest⟩ := hstarts _ hstart
    cases hfront with
    | cons _ hfront =>
      rw [List.length_cons] at hlength
      refine (h.run hfront hrest (by omega) depth depth').mono id fun b => ?_
      rw [List.length_cons]
      omega

/-- Takes the token that is known to come next. -/
theorem advance_next {f g : Unit → Parse β} {token : Token}
    (h : Abreast loose Anyhow (bound - 1) (fun b => taken' b - 1) (f ()) (g ())) :
    Abreast loose (StartsWith (some token)) bound taken' (Parse.advance >>= f) (Parse.advance >>= g) := by
  refine advance (fun tokens hstart => ?_) h
  cases tokens with
  | nil => cases hstart
  | cons place rest => exact ⟨place, rest, rfl, trivial⟩

/-- Takes the first of two tokens that are known to come next. -/
theorem advance_first {f g : Unit → Parse β} {first second : Token}
    (h : Abreast loose (StartsWith (some second)) (bound - 1) (fun b => taken' b - 1) (f ()) (g ())) :
    Abreast loose (StartsWithTwo first second) bound taken' (Parse.advance >>= f) (Parse.advance >>= g) := by
  refine advance (fun tokens hstart => ?_) h
  obtain ⟨place, rest, htokens, -, hrest⟩ := hstart
  exact ⟨place, rest, htokens, hrest⟩

theorem quiet_eat {f : Bool → Parse β} (token : Token) (hfound : Quiet (f true)) (hother : Quiet (f false)) :
    Quiet (eat token >>= f) := by
  refine (Quiet.of_yields (.eat token)).bind fun found => ?_
  cases found with
  | true => exact hfound
  | false => exact hother

/-- In front of a token that is there in both runs. -/
theorem related_eat {f g : Bool → Parse β} {token : Token} {place place' : PlacedToken} {rest rest' : List PlacedToken}
    (hplace : place'.token = place.token) (hfront : InFront rest rest')
    (hfound : Abreast loose Anyhow (bound - 1) (fun b => taken' b - 1) (f true) (g true))
    (hother : Abreast loose starts bound taken' (f false) (g false))
    (hstarts : starts (place :: rest)) (hlength : (place :: rest).length < bound) (depth depth' : Nat) :
    Related loose (place :: rest).length taken' ((eat token >>= f).run ⟨depth, place :: rest⟩)
      ((eat token >>= g).run ⟨depth', place' :: rest'⟩) := by
  rw [run_bind, run_bind, run_eat, run_eat]
  have hfirst : (bare (place' :: rest')).head? = (bare (place :: rest)).head? := congrArg some hplace
  rw [hfirst]
  by_cases hnext : (bare (place :: rest)).head? = some token
  · rw [if_pos hnext, if_pos hnext]
    rw [List.length_cons] at hlength
    refine (hfound.run hfront trivial (by omega) depth depth').mono id fun b => ?_
    rw [List.length_cons]
    omega
  · rw [if_neg hnext, if_neg hnext]
    exact hother.run (.cons hplace hfront) hstarts hlength depth depth'

theorem eat {f g : Bool → Parse β} {token : Token}
    (htoken : token ≠ .mark .closeParen)
    (hfound : Abreast loose Anyhow (bound - 1) (fun b => taken' b - 1) (f true) (g true))
    (hother : Abreast loose starts bound taken' (f false) (g false)) :
    Abreast loose starts bound taken' (Parse.eat token >>= f) (Parse.eat token >>= g) where
  quiet := quiet_eat token hfound.quiet hother.quiet
  quiet' := quiet_eat token hfound.quiet' hother.quiet'
  run hfront hstarts hlength depth depth' := by
    cases hfront with
    | @closing place hplace =>
      have hfirst : (bare [place]).head? ≠ some token := fun hfirst =>
        htoken ((Option.some.inj hfirst).symm.trans hplace)
      rw [run_bind, run_bind, run_eat, run_eat, if_neg (by simp), if_neg hfirst]
      exact hother.run (.closing hplace) hstarts hlength depth depth'
    | cons hplace hrest => exact related_eat hplace hrest hfound hother hstarts hlength depth depth'

/-- The second run can take the parenthesis where the first has come to its end. -/
theorem eat_closing {f g : Bool → Parse β}
    (hfound : Abreast loose Anyhow (bound - 1) (fun b => taken' b - 1) (f true) (g true))
    (hother : Abreast loose starts bound taken' (f false) (g false))
    (hend : Fails (f false) []) :
    Abreast loose starts bound taken' (Parse.eat (.mark .closeParen) >>= f)
      (Parse.eat (.mark .closeParen) >>= g) where
  quiet := quiet_eat _ hfound.quiet hother.quiet
  quiet' := quiet_eat _ hfound.quiet' hother.quiet'
  run hfront hstarts hlength depth depth' := by
    cases hfront with
    | @closing place hplace =>
      have hfirst : (bare [place]).head? = some (.mark .closeParen) := congrArg some hplace
      rw [run_bind, run_bind, run_eat, run_eat, if_neg (by simp), if_pos hfirst]
      exact .ended (hend.ended depth) (hfound.quiet' depth')
    | cons hplace hrest => exact related_eat hplace hrest hfound hother hstarts hlength depth depth'

theorem expect (token : Token) :
    Abreast loose starts bound (fun _ => 1) (expect token) (expect token) := by
  have hfound : Abreast loose Anyhow (bound - 1) (fun _ => 1 - 1) (Pure.pure () : Parse Unit)
      (Pure.pure ()) := .pure ()
  by_cases htoken : token = .mark .closeParen
  · subst htoken
    exact .eat_closing hfound (.complain _ _) (.complain _)
  · exact .eat htoken hfound (.complain _ _)

theorem identifier :
    Abreast loose Anyhow bound (fun _ => 1) identifier identifier := by
  refine .peek (fun _ => Fails.ended (.complain _) _) (.complain _ _) fun token => ?_
  cases token with
  | identifier name => exact .advance_next (.pure _)
  | _ => exact .complain _ _

/-- The rounds of each run outnumber its tokens. -/
theorem rounds {f g : Nat → Parse β}
    (h : ∀ bound rounds rounds', bound ≤ rounds → bound ≤ rounds' →
      Abreast loose Anyhow bound taken' (f rounds) (g rounds')) :
    Abreast loose starts bound taken' (rounds >>= f) (rounds >>= g) where
  quiet := (h 1 1 1 (Nat.le_refl _) (Nat.le_refl _)).quiet
  quiet' := (h 1 1 1 (Nat.le_refl _) (Nat.le_refl _)).quiet'
  run {tokens tokens'} hfront _ _ depth depth' := by
    have hlength : tokens.length + 1 ≤ tokens'.length + 1 := by
      rw [hfront.length_eq]
      omega
    exact (h (tokens.length + 1) _ _ (Nat.le_refl _) hlength).run hfront trivial (Nat.lt_succ_self _) depth depth'

/-- Behind the parenthesis there is no arrow. -/
theorem arrow_afterParenthesis {tokens tokens' : List PlacedToken} (hfront : InFront tokens tokens') (opened : Nat) :
    ((afterParenthesis opened tokens').bind List.head?).map (·.token) = some (.mark .arrow) ↔
      ((afterParenthesis opened tokens).bind List.head?).map (·.token) = some (.mark .arrow) := by
  induction hfront generalizing opened with
  | @closing place hplace =>
    have hlast : afterParenthesis opened [place] = if opened ≤ 1 then some [] else none := by
      rw [afterParenthesis, hplace]
      rfl
    rw [hlast]
    split <;> simp [afterParenthesis]
  | cons hplace hrest ih =>
    rw [afterParenthesis, afterParenthesis, hplace]
    split
    · exact ih _
    · split
      · cases hrest with
        | closing hclosing => simp [hclosing]
        | cons hnext => simp [hnext]
      · exact ih _
    · exact ih _

theorem startsArrowFunction_inFront {tokens tokens' : List PlacedToken} (hfront : InFront tokens tokens') :
    startsArrowFunction tokens' = startsArrowFunction tokens := by
  cases hfront with
  | closing hplace => exact (Closed.cons hplace []).startsArrowFunction_eq
  | cons hplace hrest =>
    unfold startsArrowFunction
    dsimp only
    rw [hplace, decide_eq_decide.2 (arrow_afterParenthesis hrest 1)]

theorem arrow {thenX thenY elseX elseY : Parse β}
    (hthen : Abreast loose (StartsWith (some (.mark .openParen))) bound taken' thenX thenY)
    (helse : Abreast loose starts bound taken' elseX elseY) :
    Abreast loose starts bound taken'
      (do if startsArrowFunction (← get).tokens then thenX else elseX)
      (do if startsArrowFunction (← get).tokens then thenY else elseY) where
  quiet := helse.quiet
  quiet' := helse.quiet'
  run {tokens tokens'} hfront hstarts hlength depth depth' := by
    show Related _ _ _ ((if startsArrowFunction tokens then thenX else elseX).run _)
      ((if startsArrowFunction tokens' then thenY else elseY).run _)
    rw [startsArrowFunction_inFront hfront]
    cases hstart : startsArrowFunction tokens with
    | false => exact helse.run hfront hstarts hlength depth depth'
    | true =>
      refine hthen.run hfront ?_ hlength depth depth'
      cases tokens with
      | nil => cases hstart
      | cons place rest => exact congrArg some (of_decide_eq_true (Bool.and_eq_true_iff.1 hstart).1)

/-! #### Weaker statements, and loops -/

theorem starting (h : Abreast loose Anyhow bound taken x y) : Abreast loose starts bound taken x y :=
  h.mono (fun _ _ => trivial) id fun _ => Nat.le_refl _

theorem loosely (h : Abreast false starts bound taken x y) : Abreast loose starts bound taken x y :=
  h.mono (fun _ => id) (fun hfalse => nomatch hfalse) fun _ => Nat.le_refl _

theorem nothing (h : Abreast loose starts bound taken x y) :
    Abreast loose starts bound (fun _ => 0) x y :=
  h.mono (fun _ => id) id fun _ => Nat.zero_le _

/-- A loop, given what a round of it does.  Each round takes a token, so that neither run is out of rounds while it
has tokens. -/
theorem loop {ι : Type} {F G : Nat → ι → Parse β} (hquiet : ∀ rounds i, Quiet (F rounds i))
    (hquiet' : ∀ rounds i, Quiet (G rounds i))
    (hround : ∀ bound rounds rounds', (∀ bound' ≤ bound - 1, ∀ i,
      Abreast loose Anyhow bound' taken' (F rounds i) (G rounds' i)) →
      ∀ i, Abreast loose Anyhow bound taken' (F (rounds + 1) i) (G (rounds' + 1) i))
    (bound rounds rounds' : Nat) (hrounds : bound ≤ rounds) (hrounds' : bound ≤ rounds') (i : ι) :
    Abreast loose Anyhow bound taken' (F rounds i) (G rounds' i) := by
  have hnone (rounds rounds' : Nat) (i : ι) : Abreast loose Anyhow 0 taken' (F rounds i) (G rounds' i) :=
    ⟨hquiet rounds i, hquiet' rounds' i, fun _ _ hlength => absurd hlength (Nat.not_lt_zero _)⟩
  induction rounds generalizing bound rounds' i with
  | zero =>
    obtain rfl := Nat.le_zero.1 hrounds
    exact hnone 0 rounds' i
  | succ rounds ih =>
    cases rounds' with
    | zero =>
      obtain rfl := Nat.le_zero.1 hrounds'
      exact hnone (rounds + 1) 0 i
    | succ rounds' =>
      exact hround bound rounds rounds' (fun bound' hbound' => ih bound' rounds' (by omega) (by omega)) i

end Abreast

end SequenceNotation.Script
