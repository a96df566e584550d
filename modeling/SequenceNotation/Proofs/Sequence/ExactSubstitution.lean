import SequenceNotation.Proofs.Sequence.GainedExponent

/-!
# When the substitution is exact

The substitution does to the tokens of a source what should be done exactly if it does so to every single
token.  A token that is not treated as it should be shows in the tokens of the result, even where a
number swallows the tokens behind it as its exponent.
-/

namespace SequenceNotation.Sequence

open SequenceNotation.Number SequenceNotation.Script SequenceNotation.Text

/-! ### Tokens that are pending -/

theorem tokenImage_cases (values : PlaceholderValues) (behindDot : Bool) (token : Token)
    (follower : Option Char) :
    (∃ image, tokenImage values behindDot token follower = [image]) ∨
      ∃ more, tokenImage values behindDot token follower = .mark .openParen :: more := by
  unfold tokenImage
  split
  · rename_i placeholder _
    have hform := (exists_literalTokens (values.lookup placeholder) (follower = some '.')).1
    generalize literalTokens _ _ = image at hform ⊢
    generalize literalOf _ _ = literal at hform
    cases hform with
    | name => exact .inl ⟨_, rfl⟩
    | decimal => exact .inl ⟨_, rfl⟩
    | enclosed => exact .inr ⟨_, rfl⟩
    | quoted => exact .inl ⟨_, rfl⟩
  · exact .inl ⟨token, rfl⟩

/-- Tokens that are pending in front of a token that is treated as it should be are pending behind it. -/
theorem exists_pending_behind {image tokens pending rest : List Token}
    (himage : (∃ token, image = [token]) ∨ ∃ more, image = .mark .openParen :: more)
    (hpending : ∀ token ∈ pending, isExponentToken token = true)
    (h : image ++ tokens = pending ++ (image ++ rest)) :
    ∃ pending', tokens = pending' ++ rest ∧ (∀ token ∈ pending', isExponentToken token = true) ∧
      (pending' = [] → pending = []) ∧
      (pending' ≠ [] → ∀ token ∈ image, isExponentToken token = true) := by
  cases pending with
  | nil => exact ⟨[], List.append_cancel_left h, by simp, fun _ => rfl, fun hne => absurd rfl hne⟩
  | cons token pending =>
    have htoken := hpending token (.head _)
    rcases himage with ⟨first, rfl⟩ | ⟨more, rfl⟩
    · obtain rfl : first = token := (List.cons.inj h).1
      rw [← List.append_assoc] at h
      obtain ⟨pending', hne, hsub, rfl⟩ := exists_pending h (by simp)
      refine ⟨pending', rfl, fun token hmem => ?_, fun hnil => absurd hnil hne, fun _ token hmem => ?_⟩
      · rcases List.mem_append.1 (hsub token hmem) with hmem | hmem
        · exact hpending token hmem
        · rw [List.mem_singleton.1 hmem]
          exact htoken
      · rw [List.mem_singleton.1 hmem]
        exact htoken
    · rw [← (List.cons.inj h).1] at htoken
      cases htoken

/-- Where the tokens are replaced as they should be, every token is treated as it should be.  The
induction is about tokens that a number in front may have swallowed: they never come up again. -/
theorem faithful_of_tokensIn (values : PlaceholderValues) {text : List Char}
    {followed : List (Token × Option Char)} (hread : ReadAs text followed) (mode : SubstitutionMode)
    (behindDot : Bool) {pending : List Token}
    (hpending : ∀ token ∈ pending, isExponentToken token = true)
    (hdot : pending ≠ [] → behindDot = false)
    (h : tokensIn (substituteFrom values mode text) =
      some (pending ++ replaceTokens values behindDot followed)) :
    pending = [] ∧ faithful values mode behindDot text = true := by
  induction hlength : text.length using Nat.strongRecOn
    generalizing text followed mode behindDot pending with
  | _ length ih =>
  subst hlength
  cases hread with
  | nil =>
    rw [substituteFrom, tokensIn_nil, replaceTokens, List.append_nil, Option.some.injEq] at h
    refine ⟨h.symm, ?_⟩
    rw [faithful]
  | @skipped c rest n followed hlexeme hread =>
    rw [tokensIn_substituteFrom_skipped values mode hlexeme] at h
    rw [faithful_skipped values mode hlexeme]
    refine ih _ ?_ hread _ behindDot hpending hdot h rfl
    simp only [List.length_drop, List.length_cons]
    omega
  | @token c rest n token followed hlexeme hread =>
    rw [replaceTokens] at h
    have htouched := untouched_eq_isNone values mode hlexeme hpending hdot h
    rw [faithful_token values mode hlexeme]
    have hlt : (rest.drop n).length < (c :: rest).length := by
      simp only [List.length_drop, List.length_cons]
      omega
    cases hgain : gainsExponent values mode (c :: rest.take n) (rest.drop n) with
    | true =>
      -- the tokens that the number swallows are missing from here to the end
      exfalso
      obtain ⟨value, rfl, hnumber, hc⟩ := exists_number values mode hlexeme hgain
      obtain ⟨mode', rest', followed', pending', hlt', hread', hne, hpending', h'⟩ :=
        exists_swallowed values hc hnumber hgain hread hpending h
      have hlt'' : rest'.length < (c :: rest).length := Nat.lt_succ_of_lt hlt'
      exact hne (ih _ hlt'' hread' mode' false hpending' (fun _ => rfl) h' rfl).1
    | false =>
      have hkeeps : keepsToken values mode behindDot token (c :: rest.take n) (rest.drop n) = true := by
        rw [keepsToken, htouched, decide_eq_true rfl, hgain]
        rfl
      rw [tokensIn_substituteFrom_token values mode hlexeme hkeeps] at h
      obtain ⟨tokens, htokens, heq⟩ := Option.map_eq_some_iff.1 h
      obtain ⟨pending', rfl, hpending', hnil, himage⟩ :=
        exists_pending_behind (tokenImage_cases values behindDot token _) hpending heq
      -- tokens are pending only behind tokens of an exponent, and a point is none
      have hdot' : pending' ≠ [] → decide (token = .mark .dot) = false := by
        intro hne
        rw [decide_eq_false_iff_not]
        rintro rfl
        exact absurd (himage hne (.mark .dot) (.head _)) (by decide)
      obtain ⟨hnil', hfaithful⟩ := ih _ hlt hread _ _ hpending' hdot' htokens rfl
      exact ⟨hnil hnil', by rw [hkeeps, hfaithful]; rfl⟩

/-- The substitution acts exactly on the placeholders among the tokens of a source. -/
def ActsOnPlaceholders (source : String) (values : PlaceholderValues) : Prop :=
  ∀ tokens, tokenize source = .ok tokens →
    tokensOf (substitute source values) =
      some (replaceTokens values false (followedTokens source tokens))

/-- The substitution acts exactly on the placeholders of a source that can be read if and only if it
treats every token as it should. -/
theorem actsOnPlaceholders_iff (source : String) (values : PlaceholderValues) :
    ActsOnPlaceholders source values ↔
      ((tokensOf source).isSome → faithful values (.code none) false source.toList = true) := by
  have hsubstitute : tokensOf (substitute source values) =
      tokensIn (substituteFrom values (.code none) source.toList) := by
    show tokensIn (substitute source values).toList = _
    rw [substitute, String.toList_ofList]
  rw [ActsOnPlaceholders, hsubstitute]
  unfold tokensOf
  cases htokens : tokenize source with
  | error fault => simp [Except.toOption]
  | ok tokens =>
    have hread := readAs_tokenize htokens
    constructor
    · intro h _
      have hnone : ∀ token ∈ ([] : List Token), isExponentToken token = true := by simp
      exact (faithful_of_tokensIn values hread (.code none) false hnone (fun _ => rfl)
        (h tokens rfl)).2
    · rintro h _ ⟨⟩
      exact tokensIn_of_faithful values hread _ _ (h rfl)

/-- A blank hides a point from the substitution: the name of a member behind it is replaced. -/
theorem member_behind_blank_replaced :
    ¬ActsOnPlaceholders "x. i" { start := .number 1, step := .number 2, selections := 4, index := 3 } := by
  intro h
  have hdiffer := h [⟨.identifier "x", 0, 1⟩, ⟨.mark .dot, 1, 2⟩, ⟨.identifier "i", 3, 4⟩]
    (by decide +kernel)
  revert hdiffer
  decide +kernel

end SequenceNotation.Sequence
