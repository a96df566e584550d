import SequenceNotation.Proofs.Script.ReaderProgress

/-!
# Loops of readers end

A loop is made of rounds, and each round is given what goes on behind it.  As a round leaves fewer tokens than it found,
over more rounds than there are tokens the last one is never gone on from, and anything may stand behind it.
-/

namespace SequenceNotation.Script

open Parse

variable {α β : Type}

/-! ### Where readers get -/

/-- Whenever the reader succeeds, there are fewer tokens left, or at least no more, and the nesting is no less deep. -/
def Onward (takes : Bool) (x : Parse α) : Prop :=
  ∀ s a t, x.run s = .ok (a, t) → t.tokens.length + takes.toNat ≤ s.tokens.length ∧ s.depth ≤ t.depth

theorem Moves.onward {takes : Bool} {x : Parse α} (h : ∀ tokens, Moves takes x tokens) : Onward takes x := by
  intro s a t hrun
  have hends := h s.tokens s.depth
  rw [show (⟨s.depth, s.tokens⟩ : ParseState) = s from rfl, hrun] at hends
  cases hends with
  | ok htokens htakes hdepth =>
    refine ⟨?_, hdepth⟩
    cases takes with
    | true => exact htakes rfl
    | false => exact htokens.length_le

namespace Onward

variable {takes : Bool} {x : Parse α} {f : α → Parse β}

theorem bind {first second : Bool} (h : Onward first x) (hf : ∀ a, Onward second (f a))
    (htakes : takes.toNat ≤ first.toNat + second.toNat) : Onward takes (x >>= f) := by
  intro s b t hrun
  rw [run_bind] at hrun
  split at hrun
  · rename_i a middle hx
    obtain ⟨hlength, hdepth⟩ := h _ _ _ hx
    obtain ⟨hlength', hdepth'⟩ := hf a _ _ _ hrun
    omega
  · cases hrun

theorem look (n : Nat) : Onward false (peek? n) := by
  intro s a t hrun
  cases hrun
  exact ⟨Nat.le_refl _, Nat.le_refl _⟩

theorem get : Onward false (get : Parse ParseState) := by
  intro s a t hrun
  cases hrun
  exact ⟨Nat.le_refl _, Nat.le_refl _⟩

theorem advance : Onward true advance := by
  rintro ⟨depth, tokens⟩ a t hrun
  cases tokens <;> cases hrun
  exact ⟨Nat.le_refl _, Nat.le_refl _⟩

theorem eat (token : Token) : Onward false (eat token) := by
  have hmoves (tokens : List PlacedToken) : Moves false (Parse.eat token >>= pure) tokens :=
    .eat token (fun _ => .pure _) (.pure _)
  rw [bind_pure] at hmoves
  exact Moves.onward hmoves

theorem descend : Onward false descend := by
  have hmoves (tokens : List PlacedToken) : Moves false (Parse.descend >>= pure) tokens :=
    .descend (.pure _)
  rw [bind_pure] at hmoves
  exact Moves.onward hmoves

theorem nested {takes : Bool} (h : Onward takes x) : Onward takes (nested x) := by
  intro s a t hrun
  rw [run_nested] at hrun
  split at hrun
  · cases hrun
  · split at hrun
    · rename_i b middle hx
      cases hrun
      exact ⟨(h _ _ _ hx).1, Nat.le_refl _⟩
    · cases hrun

theorem countedBehind (expression : Expression) (upwards : Bool) :
    Onward true (Rules.countedBehind expression upwards) := by
  refine descend.bind (fun _ => (?_ : Onward true _)) (Nat.le_refl _)
  split
  · exact advance.bind (fun _ => Moves.onward fun _ => .pure _) (Nat.le_refl _)
  · exact Moves.onward fun _ => .complain nofun

end Onward

/-! ### Readers that do the same -/

/-- The readers do the same from every state of a kind. -/
def SameOn (P : ParseState → Prop) (x y : Parse α) : Prop :=
  ∀ s, P s → x.run s = y.run s

theorem SameOn.refl (P : ParseState → Prop) (x : Parse α) : SameOn P x x :=
  fun _ _ => rfl

theorem SameOn.bind {P Q : ParseState → Prop} {x y : Parse α} {f g : α → Parse β} (h : SameOn P x y)
    (hQ : ∀ s a t, P s → y.run s = .ok (a, t) → Q t) (hf : ∀ a, SameOn Q (f a) (g a)) :
    SameOn P (x >>= f) (y >>= g) := by
  intro s hs
  rw [run_bind, run_bind, h s hs]
  cases hrun : y.run s with
  | error fault => rfl
  | ok result => exact hf _ _ (hQ s _ _ hs hrun)

/-- What goes on behind readers that do the same. -/
theorem SameOn.before {P : ParseState → Prop} {x y : Parse α} (h : SameOn P x y) (f : α → Parse β) :
    SameOn P (x >>= f) (y >>= f) :=
  h.bind (Q := fun _ => True) (fun _ _ _ _ _ => trivial) fun _ => .refl _ _

/-- The readers do the same from fewer than `bound` tokens. -/
abbrev SameBelow (bound : Nat) (x y : Parse α) : Prop :=
  SameOn (fun s => s.tokens.length < bound) x y

namespace SameBelow

variable {bound : Nat} {x : Parse α} {f g : α → Parse β}

theorem none (x y : Parse α) : SameBelow 0 x y :=
  fun _ hs => absurd hs (Nat.not_lt_zero _)

theorem bind (hx : Onward false x) (hf : ∀ a, SameBelow bound (f a) (g a)) : SameBelow bound (x >>= f) (x >>= g) :=
  (SameOn.refl _ x).bind (fun _ _ _ hs hrun => Nat.lt_of_le_of_lt (hx _ _ _ hrun).1 hs) hf

/-- Behind a token that is taken the readers only need to do the same from fewer tokens. -/
theorem bind_taken (hx : Onward true x) (hf : ∀ a, SameBelow bound (f a) (g a)) :
    SameBelow (bound + 1) (x >>= f) (x >>= g) :=
  (SameOn.refl _ x).bind (fun _ _ _ hs hrun => Nat.lt_of_lt_of_le (hx _ _ _ hrun).1 (Nat.le_of_lt_succ hs)) hf

end SameBelow

/-- The loops over expressions do the same from fewer than `bound` tokens. -/
abbrev SameLoopsBelow (bound : Nat) (x y : Expression → Parse Expression) : Prop :=
  ∀ expression, SameBelow bound (x expression) (y expression)

/-- A loop over so many rounds is any other one that goes through the same rounds, from fewer tokens than that. -/
theorem same_iterate {L : Type} (Same : Nat → L → L → Prop) {round : L → L} {loop : Nat → L}
    (hloop : ∀ n, loop (n + 1) = round (loop n)) (hnone : ∀ x y, Same 0 x y)
    (hround : ∀ n x y, Same n x y → Same (n + 1) (round x) (round y)) (n : Nat) (last : L) :
    Same n (round^[n] last) (loop n) := by
  induction n with
  | zero => exact hnone _ _
  | succ n ih =>
    -- the first round leaves what is behind it fewer tokens, and as many rounds as it needs
    rw [Function.iterate_succ_apply', hloop]
    exact hround n _ _ ih

/-! ### Rounds -/

/-- A name in parentheses, and what goes on behind a comma. -/
def parameterRound (next : Parse (List String)) : Parse (List String) := do
  let name ← identifier
  if ← eat (.mark .closeParen) then
    return [name]
  else
    expect (.mark .comma)
    return name :: (← next)

/-- A closing brace, or a statement and what goes on behind it. -/
def blockRound (statement : Parse Statement) (next : Parse (List Statement)) : Parse (List Statement) := do
  match ← peek? 0 with
  | some (.mark .closeBrace) =>
    advance
    return []
  | none => complain .unclosedBlock
  | some _ =>
    let first ← statement
    return first :: (← next)

/-- An argument, and what goes on behind a comma. -/
def argumentRound (assignment : Parse Expression) (next : Parse (List Expression)) : Parse (List Expression) := do
  let argument ← assignment
  if ← eat (.mark .closeParen) then
    return [argument]
  else
    expect (.mark .comma)
    return argument :: (← next)

/-- A call, a member or counting behind an expression, and what goes on with that. -/
def suffixRound (argumentList : Parse (List Expression)) (next : Expression → Parse Expression)
    (expression : Expression) : Parse Expression := do
  match ← peek? 0 with
  | some (.mark .openParen) =>
    descend
    advance
    let arguments ← argumentList
    next (.call expression arguments)
  | some (.mark .dot) =>
    descend
    advance
    let name ← identifier
    next (.member expression name)
  | some (.mark .increment) => next (← Rules.countedBehind expression true)
  | some (.mark .decrement) => next (← Rules.countedBehind expression false)
  | _ => return expression

/-- An operator of a level and its right side, and what goes on with both sides. -/
def chainRound (level : List Joiner) (operand : Parse Expression) (next : Expression → Parse Expression)
    (left : Expression) : Parse Expression := do
  match joinerOf? level (← peek? 0) with
  | none => return left
  | some join =>
    advance
    descend
    let right ← operand
    next (join left right)

/-- A name with its initial value, and what goes on behind a comma. -/
def bindingRound (assignment : Parse Expression) (next : Parse (List (String × Option Expression))) :
    Parse (List (String × Option Expression)) := do
  let name ← identifier
  let value ← if ← eat (.mark .assign) then some <$> assignment else pure none
  if ← eat (.mark .comma) then
    return (name, value) :: (← next)
  else
    return [(name, value)]

/-- The end of the tokens, or a statement and what goes on behind it. -/
def statementRound (statement : Parse Statement) (next : Parse (List Statement)) : Parse (List Statement) := do
  if (← get).tokens.isEmpty then return []
  else
    let first ← statement
    return first :: (← next)

/-- From a state the loops do over `n` rounds what they do whatever stands behind the last one. -/
structure LoopsEnd (rules : Rules) (n : Nat) (s : ParseState) : Prop where
  parameters last : (parameterRound^[n] last).run s = (parameters n).run s
  blockRest last : ((blockRound rules.statement)^[n] last).run s = (rules.blockRest n).run s
  argumentsRest last : ((argumentRound rules.assignment)^[n] last).run s = (rules.argumentsRest n).run s
  suffixes last expression :
    ((suffixRound rules.argumentList)^[n] last expression).run s = (rules.suffixes n expression).run s
  chain level tighter last left : ((chainRound level (rules.operators tighter))^[n] last left).run s =
    (Rules.chain level (rules.operators tighter) n left).run s
  bindings last : ((bindingRound rules.assignment)^[n] last).run s = (rules.bindings n).run s

/-! ### Every round leaves fewer tokens -/

section

variable {bound : Nat}

theorem same_parameterRound {x y : Parse (List String)} (h : SameBelow bound x y) :
    SameBelow (bound + 1) (parameterRound x) (parameterRound y) := by
  refine .bind_taken (Moves.onward fun _ => .identifier) fun name => .bind (.eat _) fun closed => ?_
  cases closed with
  | true => exact .refl _ _
  | false => exact .bind (Moves.onward fun _ => (Moves.expect _).anyway) fun _ => h.before _

theorem same_blockRound {statement : Parse Statement} (hstatement : ∀ tokens, Moves true statement tokens)
    {x y : Parse (List Statement)} (h : SameBelow bound x y) :
    SameBelow (bound + 1) (blockRound statement x) (blockRound statement y) := by
  refine .bind (.look 0) fun next => ?_
  split
  · exact .refl _ _
  · exact .refl _ _
  · exact .bind_taken (Moves.onward hstatement) fun _ => h.before _

theorem same_argumentRound {assignment : Parse Expression} (hassignment : ∀ tokens, Moves true assignment tokens)
    {x y : Parse (List Expression)} (h : SameBelow bound x y) :
    SameBelow (bound + 1) (argumentRound assignment x) (argumentRound assignment y) := by
  refine .bind_taken (Moves.onward hassignment) fun _ => .bind (.eat _) fun closed => ?_
  cases closed with
  | true => exact .refl _ _
  | false => exact .bind (Moves.onward fun _ => (Moves.expect _).anyway) fun _ => h.before _

theorem same_suffixRound {argumentList : Parse (List Expression)}
    (harguments : ∀ tokens, Moves true argumentList tokens) {x y : Expression → Parse Expression}
    (h : SameLoopsBelow bound x y) :
    SameLoopsBelow (bound + 1) (suffixRound argumentList x) (suffixRound argumentList y) := by
  refine fun expression => .bind (.look 0) fun next => ?_
  split
  · exact .bind .descend fun _ => .bind_taken .advance fun _ =>
      .bind (Moves.onward fun tokens => (harguments tokens).anyway) fun _ => h _
  · exact .bind .descend fun _ => .bind_taken .advance fun _ =>
      .bind (Moves.onward fun _ => Moves.identifier.anyway) fun _ => h _
  · exact .bind_taken (.countedBehind _ _) fun _ => h _
  · exact .bind_taken (.countedBehind _ _) fun _ => h _
  · exact .refl _ _

theorem same_chainRound (level : List Joiner) {operand : Parse Expression}
    (hoperand : ∀ tokens, Moves true operand tokens) {x y : Expression → Parse Expression}
    (h : SameLoopsBelow bound x y) :
    SameLoopsBelow (bound + 1) (chainRound level operand x) (chainRound level operand y) := by
  refine fun left => .bind (.look 0) fun next => ?_
  split
  · exact .refl _ _
  · exact .bind_taken .advance fun _ => .bind .descend fun _ =>
      .bind (Moves.onward fun tokens => (hoperand tokens).anyway) fun _ => h _

theorem same_bindingRound {assignment : Parse Expression} (hassignment : ∀ tokens, Moves true assignment tokens)
    {x y : Parse (List (String × Option Expression))} (h : SameBelow bound x y) :
    SameBelow (bound + 1) (bindingRound assignment x) (bindingRound assignment y) := by
  have hmore (name : String) (value : Option Expression) :
      SameBelow bound
        (do if ← eat (.mark .comma) then return (name, value) :: (← x) else return [(name, value)])
        (do if ← eat (.mark .comma) then return (name, value) :: (← y) else return [(name, value)]) := by
    refine .bind (.eat _) fun more => ?_
    cases more with
    | true => exact h.before _
    | false => exact .refl _ _
  refine .bind_taken (Moves.onward fun _ => .identifier) fun name => .bind (.eat _) fun assigned => ?_
  cases assigned with
  | true =>
    have hvalue (tokens : List PlacedToken) : Moves false (some <$> assignment) tokens :=
      (hassignment tokens).then_return _
    exact .bind (Moves.onward hvalue) fun value => hmore name value
  | false => exact .bind (Moves.onward fun _ => .pure _) fun value => hmore name value

theorem same_statementRound {statement : Parse Statement} (hstatement : ∀ tokens, Moves true statement tokens)
    {x y : Parse (List Statement)} (h : SameBelow bound x y) :
    SameBelow (bound + 1) (statementRound statement x) (statementRound statement y) := by
  refine .bind .get fun s => ?_
  split
  · exact .refl _ _
  · exact .bind_taken (Moves.onward hstatement) fun _ => h.before _

end

theorem Rules.AllMove.loopsEnd {rules : Rules} (h : rules.AllMove) {n : Nat} {s : ParseState}
    (hn : s.tokens.length < n) : LoopsEnd rules n s where
  parameters last :=
    same_iterate SameBelow (fun _ => rfl) .none (fun _ _ _ => same_parameterRound) n last s hn
  blockRest last :=
    same_iterate SameBelow (fun _ => rfl) .none (fun _ _ _ => same_blockRound h.statement) n last s hn
  argumentsRest last :=
    same_iterate SameBelow (fun _ => rfl) .none (fun _ _ _ => same_argumentRound h.assignment) n last s hn
  suffixes last expression :=
    same_iterate SameLoopsBelow (fun _ => rfl) (fun _ _ _ => .none _ _)
      (fun _ _ _ => same_suffixRound fun _ => h.argumentList) n last expression s hn
  chain level tighter last left :=
    same_iterate SameLoopsBelow (fun _ => rfl) (fun _ _ _ => .none _ _)
      (fun _ _ _ => same_chainRound level (h.operators tighter)) n last left s hn
  bindings last :=
    same_iterate SameBelow (fun _ => rfl) .none (fun _ _ _ => same_bindingRound h.assignment) n last s hn

end SequenceNotation.Script
