import SequenceNotation.Proofs.Script.ReaderCalls

/-!
# Every source text is read or complained about

The reader goes on with every statement, stays within its tokens and calls itself within limits.  So for each source
text it has an answer: what it reads, or a fault at one of the tokens or behind the last one.
-/

namespace SequenceNotation.Script

open Parse

variable {α : Type}

/-! ### Closing parentheses -/

/-- What is left after the parenthesis that closes the first one, if there is such, with a count of open ones.  There is
no answer at all where the count would have to go below zero. -/
def scanParentheses? (opened : Nat) : List PlacedToken → Option (Option (List PlacedToken))
  | [] => some none
  | t :: rest =>
    match t.token with
    | .mark .openParen => scanParentheses? (opened + 1) rest
    | .mark .closeParen =>
      match opened with
      | 0 => none
      | 1 => some (some rest)
      | left + 2 => scanParentheses? (left + 1) rest
    | _ => scanParentheses? opened rest

theorem scanParentheses?_succ (opened : Nat) (tokens : List PlacedToken) :
    scanParentheses? (opened + 1) tokens = some (afterParenthesis (opened + 1) tokens) := by
  induction tokens generalizing opened with
  | nil => rfl
  | cons t rest ih =>
    obtain ⟨token, start⟩ := t
    cases token with
    | mark mark =>
      cases mark with
      | openParen => exact ih (opened + 1)
      | closeParen =>
        cases opened with
        | zero => rfl
        | succ left => exact ih left
      | _ => exact ih opened
    | _ => exact ih opened

/-- From an opening parenthesis on the count never goes below zero. -/
theorem scanParentheses?_open {place : PlacedToken} (h : place.token = .mark .openParen) (rest : List PlacedToken) :
    scanParentheses? 0 (place :: rest) = some (afterParenthesis 1 rest) := by
  unfold scanParentheses?
  rw [h]
  exact scanParentheses?_succ 0 rest

/-! ### Answers -/

/-- A source text is read, or it is not made of tokens, or there is a complaint at one of its tokens or behind the last
one, and not about a token that was taken where there is none. -/
inductive Answers (source : String) : Except SyntaxFault α → Prop
  | read (a : α) : Answers source (.ok a)
  | untold {fault} (h : tokenize source = .error fault) : Answers source (.error fault)
  | misplaced {tokens complaint rest} (htokens : tokenize source = .ok tokens) (hcomplaint : complaint ≠ .pastEnd)
      (hrest : rest <:+ tokens) : Answers source (.error (.misplaced complaint rest.head?))

theorem answers_parseSource {x : Parse α} (h : ∀ tokens, Moves false x tokens) (source : String) :
    Answers source (parseSource x source) := by
  unfold parseSource
  cases htokens : tokenize source with
  | error fault => exact .untold htokens
  | ok tokens =>
    have hends := h tokens 0
    show Answers source ((x.run ⟨0, tokens⟩).bind fun p => .ok p.1)
    generalize x.run ⟨0, tokens⟩ = outcome at hends ⊢
    cases hends with
    | @ok a => exact .read a
    | misplaced hcomplaint hrest => exact .misplaced htokens hcomplaint hrest

theorem moves_wholeExpression (tokens : List PlacedToken) : Moves false wholeExpression tokens := by
  have hmove : grammar.AllMove := allMove_rulesAt _
  refine (hmove.assignment tokens).anyway.bind fun expression rest => .get fun depth => ?_
  split
  · exact .pure _
  · exact .complain nofun

theorem moves_statements (rounds : Nat) (tokens : List PlacedToken) : Moves false (statements rounds) tokens := by
  have hmove : grammar.AllMove := allMove_rulesAt _
  induction rounds generalizing tokens with
  | zero => exact .pure _
  | succ rounds ih =>
    refine .get fun depth => ?_
    split
    · exact .pure _
    · exact (hmove.statement tokens).anyway.bind fun _ rest => (ih rest).bind fun _ _ => .pure _

theorem same_statements (n : Nat) (last : Parse (List Statement)) :
    SameBelow n ((statementRound grammar.statement)^[n] last) (statements n) := by
  have hmove : grammar.AllMove := allMove_rulesAt _
  exact same_iterate SameBelow (fun _ => rfl) .none (fun _ _ _ => same_statementRound hmove.statement) n last

/-- A statement takes tokens. -/
theorem exists_taken_of_statement {s t : ParseState} {statement : Statement}
    (h : grammar.statement.run s = .ok (statement, t)) : ∃ taken, taken ≠ [] ∧ s.tokens = taken ++ t.tokens := by
  have hmove : grammar.AllMove := allMove_rulesAt _
  have hends := hmove.statement s.tokens s.depth
  rw [show (⟨s.depth, s.tokens⟩ : ParseState) = s from rfl, h] at hends
  cases hends with
  | ok htokens htakes hdepth =>
    obtain ⟨taken, htaken⟩ := htokens
    refine ⟨taken, ?_, htaken.symm⟩
    rintro rfl
    rw [← htaken, List.nil_append] at htakes
    exact absurd (htakes rfl) (Nat.lt_irrefl _)

/-- Each statement takes tokens, so that no loop over more rounds than there are tokens gets to what stands behind its
last round.  What is not nested calls procedures of lower ranks only, and what is nested calls one of them, one level
deeper.  So nothing is ever asked of what stands behind eighteen times as many open calls as there are levels.  Wherever
a procedure begins, it stays behind that place and within the tokens, and never takes one where there is none.  The scan
for a closing parenthesis never counts below zero.  So every source text has its answer, as a program and as an
expression. -/
theorem reader_total :
    (∀ s statement t, grammar.statement.run s = .ok (statement, t) →
      ∃ taken, taken ≠ [] ∧ s.tokens = taken ++ t.tokens) ∧
    (∀ n s, s.tokens.length < n →
      LoopsEnd grammar n s ∧ ∀ last, ((statementRound grammar.statement)^[n] last).run s = (statements n).run s) ∧
    (∀ {α : Type} (p : Procedure α), 0 < p.rank → ∀ call call' : Calls,
      (∀ {β : Type} (q : Procedure β), q.rank < p.rank → call β q = call' β q) → p.body call = p.body call') ∧
    (∀ {α : Type} (p : Procedure α), p.rank = 0 →
      ∃ q : Procedure α, ∀ call : Calls, p.body call = nested (call α q)) ∧
    (∀ (bottom : Calls) {α : Type} (p : Procedure α),
      (Calls.oneMore^[18 * maxNesting] bottom) α p = Procedure.read grammar α p) ∧
    (∀ {α : Type} (p : Procedure α) s, Ends p.takes s ((Procedure.read grammar α p).run s)) ∧
    (∀ place rest, place.token = .mark .openParen →
      scanParentheses? 0 (place :: rest) = some (afterParenthesis 1 rest)) ∧
    ∀ source, Answers source (parseProgram source) ∧ Answers source (parseExpression source) := by
  have hmove : grammar.AllMove := allMove_rulesAt _
  refine ⟨fun _ _ _ => exists_taken_of_statement, fun n s hn => ⟨hmove.loopsEnd hn, fun last => ?_⟩,
    fun p hp _ _ h => Procedure.body_congr p hp h, fun p hp => ?_, fun bottom _ p => ?_, fun p s => ?_,
    fun _ rest h => scanParentheses?_open h rest, fun source => ⟨?_, ?_⟩⟩
  · exact same_statements n last s hn
  · obtain ⟨q, hbody, -⟩ := Procedure.exists_nested p hp
    exact ⟨q, hbody⟩
  · exact Calls.iterate_oneMore_eq bottom (by decide) p
  · exact Procedure.moves_read hmove p s.tokens s.depth
  · exact answers_parseSource (fun _ => .bind .rounds moves_statements) source
  · exact answers_parseSource moves_wholeExpression source

end SequenceNotation.Script
