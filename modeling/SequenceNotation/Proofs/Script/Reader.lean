import SequenceNotation.Script.Parse

/-!
# What readers take

Two views of a reader.  `Yields` says what it has taken, and with which result, if it succeeds.  `Leads`
says how it goes on from given tokens, unless the nesting is too deep for it; a reader that leads to a
result has read it.  Both leave the depth aside, and both have a rule for every part of a reader.
-/

namespace SequenceNotation.Script

open Parse

/-- The tokens without their places. -/
abbrev bare (placed : List PlacedToken) : List Token :=
  placed.map (·.token)

namespace Parse

variable {α β : Type}

/-- A sequence goes on from where its first part ends, and stops there if that fails. -/
theorem run_bind (x : Parse α) (f : α → Parse β) (s : ParseState) :
    (x >>= f).run s =
      match x.run s with
      | .ok (a, t) => (f a).run t
      | .error fault => .error fault := by
  show (x.run s >>= fun p => (f p.1).run p.2) = _
  cases x.run s <;> rfl

theorem run_peek? (n : Nat) (s : ParseState) :
    (peek? n).run s = .ok ((s.tokens[n]?).map (·.token), s) := rfl

theorem run_peek (s : ParseState) :
    (peek? 0).run s = .ok ((bare s.tokens).head?, s) := by
  obtain ⟨depth, tokens⟩ := s
  cases tokens <;> rfl

theorem run_peek_cons (f : Option Token → Parse β) (depth : Nat) (place : PlacedToken) (rest : List PlacedToken) :
    (peek? 0 >>= f).run ⟨depth, place :: rest⟩ = (f (some place.token)).run ⟨depth, place :: rest⟩ :=
  rfl

theorem run_look_cons (f : Option Token → Parse β) (depth : Nat) (place place' : PlacedToken)
    (rest : List PlacedToken) : (peek? 1 >>= f).run ⟨depth, place :: place' :: rest⟩ =
      (f (some place'.token)).run ⟨depth, place :: place' :: rest⟩ :=
  rfl

/-- The second token comes next behind the first one. -/
theorem head?_bare_of_look {tokens rest : List PlacedToken} {place : PlacedToken} {next : Option Token}
    (htokens : tokens = place :: rest) (h : (tokens[1]?).map (·.token) = next) : (bare rest).head? = next := by
  rw [htokens] at h
  rwa [List.head?_map, List.head?_eq_getElem?]

/-- An arrow function in parentheses begins with the first of these. -/
theorem head?_of_startsArrowFunction {tokens : List PlacedToken} (h : startsArrowFunction tokens = true) :
    (bare tokens).head? = some (.mark .openParen) := by
  cases tokens with
  | nil => cases h
  | cons place rest => exact congrArg some (of_decide_eq_true (Bool.and_eq_true_iff.1 h).1)

theorem run_eat (token : Token) (s : ParseState) :
    (eat token).run s =
      if (bare s.tokens).head? = some token then .ok (true, { s with tokens := s.tokens.tail })
      else .ok (false, s) := by
  obtain ⟨depth, tokens⟩ := s
  unfold eat
  rw [run_bind, run_peek]
  dsimp only
  split
  · cases tokens with
    | nil => contradiction
    | cons => rfl
  · rfl

theorem run_descend (s : ParseState) :
    descend.run s =
      if maxNesting < s.depth + 1 then .error (.misplaced .tooDeep s.tokens.head?)
      else .ok ((), { s with depth := s.depth + 1 }) := by
  show (if maxNesting < s.depth + 1 then complain .tooDeep else pure () : Parse Unit).run
    { s with depth := s.depth + 1 } = _
  split <;> rfl

theorem run_nested (x : Parse α) (s : ParseState) :
    (nested x).run s =
      if maxNesting < s.depth + 1 then .error (.misplaced .tooDeep s.tokens.head?)
      else
        match x.run { s with depth := s.depth + 1 } with
        | .ok (a, t) => .ok (a, { t with depth := s.depth })
        | .error fault => .error fault := by
  show (descend >>= fun _ => x >>= fun a => do
    modify fun t => { t with depth := s.depth }
    return a).run s = _
  rw [run_bind, run_descend]
  by_cases hdeep : maxNesting < s.depth + 1
  · rw [if_pos hdeep, if_pos hdeep]
  · rw [if_neg hdeep, if_neg hdeep]
    dsimp only
    rw [run_bind]
    cases x.run { s with depth := s.depth + 1 } <;> rfl

section

variable {x : Parse α} {a : α} {depth depth' : Nat} {tokens rest : List PlacedToken}

theorem run_bind_ok {s t : ParseState} (h : x.run s = .ok (a, t)) (f : α → Parse β) :
    (x >>= f).run s = (f a).run t := by
  rw [run_bind, h]

theorem run_nested_ok (hdepth : depth < maxNesting)
    (h : x.run ⟨depth + 1, tokens⟩ = .ok (a, ⟨depth', rest⟩)) :
    (nested x).run ⟨depth, tokens⟩ = .ok (a, ⟨depth, rest⟩) := by
  rw [run_nested, if_neg (Nat.not_lt.2 hdepth)]
  dsimp only
  rw [h]

theorem run_advance (place : PlacedToken) : advance.run ⟨depth, place :: rest⟩ = .ok ((), ⟨depth, rest⟩) :=
  rfl

theorem run_eat_next {place : PlacedToken} {token : Token} (h : place.token = token) :
    (eat token).run ⟨depth, place :: rest⟩ = .ok (true, ⟨depth, rest⟩) := by
  have hnext : (bare (place :: rest)).head? = some token := congrArg some h
  rw [run_eat, if_pos hnext]
  rfl

theorem run_expect_next {place : PlacedToken} {token : Token} (h : place.token = token) :
    (expect token).run ⟨depth, place :: rest⟩ = .ok ((), ⟨depth, rest⟩) :=
  run_bind_ok (run_eat_next h) _

end

end Parse

/-! ### What is taken -/

/-- Whenever the reader succeeds, the tokens it has taken and its result are as `Q` says. -/
def Yields {α : Type} (x : Parse α) (tokens : List PlacedToken) (Q : List Token → α → Prop) : Prop :=
  ∀ depth a depth' rest, x.run ⟨depth, tokens⟩ = .ok (a, ⟨depth', rest⟩) →
    ∃ taken, tokens = taken ++ rest ∧ Q (bare taken) a

namespace Yields

variable {α β : Type} {tokens : List PlacedToken} {Q : List Token → α → Prop}
variable {R : List Token → β → Prop}

theorem of_eq {x : Parse α} (h : ∀ depth, ∃ a depth', x.run ⟨depth, tokens⟩ = .ok (a, ⟨depth', tokens⟩) ∧
    Q [] a) : Yields x tokens Q := by
  intro depth a depth' rest hrun
  obtain ⟨b, depth'', heq, hQ⟩ := h depth
  rw [heq] at hrun
  cases hrun
  exact ⟨[], rfl, hQ⟩

theorem pure {a : α} (h : Q [] a) : Yields (pure a) tokens Q :=
  of_eq fun depth => ⟨a, depth, rfl, h⟩

theorem bind {x : Parse α} {f : α → Parse β} (h : Yields x tokens Q)
    (hf : ∀ taken a rest, tokens = taken ++ rest → Q (bare taken) a →
      Yields (f a) rest fun more b => R (bare taken ++ more) b) : Yields (x >>= f) tokens R := by
  intro depth b depth' rest hrun
  rw [run_bind] at hrun
  split at hrun
  · rename_i a t hx
    obtain ⟨taken, htaken, hQ⟩ := h _ _ _ _ hx
    obtain ⟨more, hmore, hR⟩ := hf taken a t.tokens htaken hQ _ _ _ _ hrun
    refine ⟨taken ++ more, by rw [htaken, hmore, List.append_assoc], ?_⟩
    rw [bare, List.map_append]
    exact hR
  · cases hrun

theorem mono {Q' : List Token → α → Prop} {x : Parse α} (h : Yields x tokens Q)
    (hQ : ∀ taken a, Q taken a → Q' taken a) : Yields x tokens Q' := by
  intro depth a depth' rest hrun
  obtain ⟨taken, htaken, hq⟩ := h depth a depth' rest hrun
  exact ⟨taken, htaken, hQ _ _ hq⟩

theorem complain (complaint : Complaint) : Yields (complain complaint : Parse α) tokens Q := by
  intro depth a depth' rest hrun
  cases hrun

theorem peek {f : Option Token → Parse β} (h : Yields (f (bare tokens).head?) tokens R) :
    Yields (peek? 0 >>= f) tokens R := by
  intro depth b depth' rest hrun
  rw [run_bind, run_peek] at hrun
  exact h _ _ _ _ hrun

theorem look (n : Nat) {f : Option Token → Parse β} (h : Yields (f ((tokens[n]?).map (·.token))) tokens R) :
    Yields (peek? n >>= f) tokens R := by
  intro depth b depth' rest hrun
  rw [run_bind, run_peek?] at hrun
  exact h _ _ _ _ hrun

theorem get {f : ParseState → Parse β} (h : ∀ depth, Yields (f ⟨depth, tokens⟩) tokens R) :
    Yields (get >>= f) tokens R :=
  fun depth => h depth depth

theorem advance {f : Unit → Parse β} {token : Token} (hnext : (bare tokens).head? = some token)
    (h : ∀ place rest, tokens = place :: rest →
      Yields (f ()) rest fun more b => R (token :: more) b) : Yields (advance >>= f) tokens R := by
  cases tokens with
  | nil => cases hnext
  | cons place rest =>
    cases hnext
    intro depth b depth' rest' hrun
    obtain ⟨more, hmore, hR⟩ := h place rest rfl _ _ _ _ hrun
    exact ⟨place :: more, by rw [hmore, List.cons_append], hR⟩

theorem eat (token : Token) : Yields (eat token) tokens fun taken found =>
    found = true ∧ taken = [token] ∨ found = false ∧ taken = [] := by
  intro depth a depth' rest hrun
  rw [run_eat] at hrun
  split at hrun
  · rename_i hnext
    cases tokens with
    | nil => cases hnext
    | cons place tokens =>
      cases hnext
      cases hrun
      exact ⟨[place], rfl, .inl ⟨rfl, rfl⟩⟩
  · cases hrun
    exact ⟨[], rfl, .inr ⟨rfl, rfl⟩⟩

theorem expect (token : Token) : Yields (expect token) tokens fun taken _ => taken = [token] := by
  refine bind (eat token) fun taken found rest _ h => ?_
  rcases h with ⟨rfl, htaken⟩ | ⟨rfl, -⟩
  · exact pure (by rw [htaken, List.append_nil])
  · exact complain _

theorem identifier : Yields identifier tokens fun taken name => taken = [.identifier name] := by
  refine peek ?_
  split
  · rename_i name hnext
    exact advance hnext fun _ _ _ => pure rfl
  · exact complain _

theorem descend : Yields descend tokens fun taken _ => taken = [] := by
  intro depth a depth' rest hrun
  rw [run_descend] at hrun
  split at hrun
  · cases hrun
  · cases hrun
    exact ⟨[], rfl, rfl⟩

theorem rounds : Yields rounds tokens fun taken _ => taken = [] :=
  of_eq fun depth => ⟨_, depth, rfl, rfl⟩

theorem nested {x : Parse α} (h : Yields x tokens Q) : Yields (nested x) tokens Q := by
  intro depth a depth' rest hrun
  rw [run_nested] at hrun
  split at hrun
  · cases hrun
  · split at hrun
    · rename_i b t hx
      cases hrun
      exact h _ _ _ _ hx
    · cases hrun

/-- Parts that take nothing leave what is to be shown as it is. -/
theorem bind_nothing {x : Parse α} {f : α → Parse β} (h : Yields x tokens fun taken _ => taken = [])
    (hf : ∀ a, Yields (f a) tokens R) : Yields (x >>= f) tokens R := by
  refine bind h fun taken a rest htokens htaken => ?_
  obtain rfl : taken = [] := List.map_eq_nil_iff.1 htaken
  rw [List.nil_append] at htokens
  subst htokens
  exact hf a

end Yields

/-! ### What is read -/

/-- From the tokens the first reader does what the second does from the rest, at some depth, unless the
nesting is too deep. -/
def Leads {α : Type} (x : Parse α) (tokens : List PlacedToken) (y : Parse α)
    (rest : List PlacedToken) : Prop :=
  ∀ depth, (∃ depth', x.run ⟨depth, tokens⟩ = y.run ⟨depth', rest⟩) ∨
    ∃ found, x.run ⟨depth, tokens⟩ = .error (.misplaced .tooDeep found)

/-- The reader reads a result up to the rest, unless the nesting is too deep. -/
abbrev Reads {α : Type} (x : Parse α) (tokens : List PlacedToken) (a : α)
    (rest : List PlacedToken) : Prop :=
  Leads x tokens (pure a) rest

namespace Leads

variable {α β : Type} {x y z : Parse α} {tokens rest rest' : List PlacedToken}

theorem refl (x : Parse α) (tokens : List PlacedToken) : Leads x tokens x tokens :=
  fun depth => .inl ⟨depth, rfl⟩

theorem trans (h : Leads x tokens y rest) (h' : Leads y rest z rest') : Leads x tokens z rest' := by
  intro depth
  rcases h depth with ⟨depth', hrun⟩ | hdeep
  · rw [hrun]
    exact h' depth'
  · exact .inr hdeep

/-- What has been read is handed on. -/
theorem bind {a : α} {f : α → Parse β} {y : Parse β} (h : Reads x tokens a rest)
    (hf : Leads (f a) rest y rest') : Leads (x >>= f) tokens y rest' := by
  intro depth
  rw [run_bind]
  rcases h depth with ⟨depth', hrun⟩ | ⟨found, hdeep⟩
  · rw [hrun]
    exact hf depth'
  · rw [hdeep]
    exact .inr ⟨found, rfl⟩

theorem of_tooDeep : Leads (complain .tooDeep) tokens y rest :=
  fun _ => .inr ⟨_, rfl⟩

end Leads

namespace Reads

variable {α β : Type} {x : Parse α} {tokens rest : List PlacedToken} {a : α}

theorem of_run (h : ∀ depth, x.run ⟨depth, tokens⟩ = .ok (a, ⟨depth, rest⟩)) : Reads x tokens a rest :=
  fun depth => .inl ⟨depth, h depth⟩

theorem peek (tokens : List PlacedToken) : Reads (peek? 0) tokens (bare tokens).head? tokens :=
  of_run fun _ => run_peek _

theorem advance (place : PlacedToken) (rest : List PlacedToken) :
    Reads advance (place :: rest) () rest :=
  of_run fun _ => run_advance place

theorem eat (place : PlacedToken) (rest : List PlacedToken) :
    Reads (eat place.token) (place :: rest) true rest :=
  of_run fun _ => run_eat_next rfl

theorem eat_other {token : Token} (h : (bare tokens).head? ≠ some token) :
    Reads (Parse.eat token) tokens false tokens :=
  of_run fun _ => by rw [run_eat, if_neg h]

theorem expect (place : PlacedToken) (rest : List PlacedToken) :
    Reads (expect place.token) (place :: rest) () rest :=
  of_run fun _ => run_expect_next rfl

theorem identifier {place : PlacedToken} {name : String} (h : place.token = .identifier name)
    (rest : List PlacedToken) : Reads identifier (place :: rest) name rest := by
  refine .bind (peek _) ?_
  rw [bare, List.map_cons, List.head?_cons, h]
  exact .bind (advance place rest) (.refl _ _)

theorem rounds (tokens : List PlacedToken) : Reads rounds tokens (tokens.length + 1) tokens :=
  of_run fun _ => rfl

theorem descend (tokens : List PlacedToken) : Reads descend tokens () tokens := by
  intro depth
  rw [run_descend]
  split
  · exact .inr ⟨_, rfl⟩
  · exact .inl ⟨_, rfl⟩

theorem nested (h : Reads x tokens a rest) : Reads (nested x) tokens a rest := by
  intro depth
  rw [run_nested]
  split
  · exact .inr ⟨_, rfl⟩
  · rcases h (depth + 1) with ⟨depth', hrun⟩ | ⟨found, hdeep⟩
    · rw [hrun]
      exact .inl ⟨depth, rfl⟩
    · rw [hdeep]
      exact .inr ⟨found, rfl⟩

end Reads

end SequenceNotation.Script
