import Mathlib.Data.List.Perm.Subperm
import SequenceNotation.Pattern.Definition

/-!
# Runs of the resolver

Resolving a name is described here as a run, without a number of levels: a kept text is taken, a pending or an unknown
name has no text, and the text of any other name is made of its pieces while the name is pending.  A run of this kind
is finite, and there is at most one.  The resolver makes this run whatever the definitions refer to, cycles included:
the names that are pending are distinct and all of them are defined, so the levels never run out.
-/

namespace SequenceNotation.Pattern

open SequenceNotation.Text

mutual

/-- A run that resolves a name while others are pending: the texts that are kept before, the text of the name, if there
is one, and the texts that are kept afterwards. -/
inductive Resolves (definitions : Definitions) :
    List String → String → Resolved → Option (List Char) → Resolved → Prop
  | kept {pending name resolved text} (h : resolved.lookup name = some text) :
      Resolves definitions pending name resolved (some text) resolved
  | pending {pending name resolved} (hnew : resolved.lookup name = none) (h : name ∈ pending) :
      Resolves definitions pending name resolved none resolved
  | unknown {pending name resolved} (hnew : resolved.lookup name = none) (hfree : name ∉ pending)
      (h : definitions.lookup name = none) : Resolves definitions pending name resolved none resolved
  | defined {pending name resolved source text resolved'} (hnew : resolved.lookup name = none)
      (hfree : name ∉ pending) (hsource : definitions.lookup name = some source)
      (h : ResolvesPieces definitions (name :: pending) (pieces source.toList) resolved text resolved') :
      Resolves definitions pending name resolved (some text) ((name, text) :: resolved')

/-- A run that makes the text of pieces and resolves the references among them one after the other. -/
inductive ResolvesPieces (definitions : Definitions) :
    List String → List Piece → Resolved → List Char → Resolved → Prop
  | nil {pending resolved} : ResolvesPieces definitions pending [] resolved [] resolved
  | char {pending c rest resolved text resolved'} (h : ResolvesPieces definitions pending rest resolved text resolved') :
      ResolvesPieces definitions pending (.char c :: rest) resolved (c :: text) resolved'
  | reference {pending name rest resolved inner resolved' text resolved''}
      (hname : Resolves definitions pending name resolved inner resolved')
      (hrest : ResolvesPieces definitions pending rest resolved' text resolved'') :
      ResolvesPieces definitions pending (.reference name :: rest) resolved
        (grouped (inner.getD matchesNothing) ++ text) resolved''

end

/-- A run that resolves the names of a list one after the other. -/
inductive ResolvesNames (definitions : Definitions) : List String → Resolved → List (String × List Char) → Prop
  | nil {resolved} : ResolvesNames definitions [] resolved []
  | cons {name rest resolved text resolved' texts} (hname : Resolves definitions [] name resolved text resolved')
      (hrest : ResolvesNames definitions rest resolved' texts) :
      ResolvesNames definitions (name :: rest) resolved ((name, withoutBlanks (text.getD matchesNothing)) :: texts)

variable {definitions : Definitions}

/-! ### There is at most one run -/

theorem Resolves.unique {pending : List String} {name : String} {resolved memo memo' : Resolved}
    {text text' : Option (List Char)} (h : Resolves definitions pending name resolved text memo)
    (h' : Resolves definitions pending name resolved text' memo') : text = text' ∧ memo = memo' := by
  refine @Resolves.rec definitions
    (fun pending name resolved text memo _ => ∀ text' memo',
      Resolves definitions pending name resolved text' memo' → text = text' ∧ memo = memo')
    (fun pending list resolved text memo _ => ∀ text' memo',
      ResolvesPieces definitions pending list resolved text' memo' → text = text' ∧ memo = memo')
    ?kept ?pending ?unknown ?defined ?nil ?char ?reference _ _ _ _ _ h _ _ h'
  case kept =>
    intro pending name resolved text hkept text' memo' h'
    cases h' <;> simp_all
  case pending =>
    intro pending name resolved hnew hpending text' memo' h'
    cases h' <;> simp_all
  case unknown =>
    intro pending name resolved hnew hfree hunknown text' memo' h'
    cases h' <;> simp_all
  case defined =>
    intro pending name resolved source text memo hnew hfree hsource _ ih text' memo' h'
    cases h' with
    | defined _ _ hsource' hpieces' =>
      obtain rfl := Option.some.inj (hsource.symm.trans hsource')
      obtain ⟨rfl, rfl⟩ := ih _ _ hpieces'
      exact ⟨rfl, rfl⟩
    | _ => simp_all
  case nil =>
    intro pending resolved text' memo' h'
    cases h'
    exact ⟨rfl, rfl⟩
  case char =>
    intro pending c rest resolved text memo _ ih text' memo' h'
    cases h' with
    | char hrest' =>
      obtain ⟨rfl, rfl⟩ := ih _ _ hrest'
      exact ⟨rfl, rfl⟩
  case reference =>
    intro pending name rest resolved inner memo text memo' _ _ ihname ihrest text' memo'' h'
    cases h' with
    | reference hname' hrest' =>
      obtain ⟨rfl, rfl⟩ := ihname _ _ hname'
      obtain ⟨rfl, rfl⟩ := ihrest _ _ hrest'
      exact ⟨rfl, rfl⟩

theorem ResolvesNames.unique {names : List String} {resolved : Resolved} {texts texts' : List (String × List Char)}
    (h : ResolvesNames definitions names resolved texts) (h' : ResolvesNames definitions names resolved texts') :
    texts = texts' := by
  induction h generalizing texts' with
  | nil =>
    cases h'
    rfl
  | cons hname _ ih =>
    cases h' with
    | cons hname' hrest' =>
      obtain ⟨rfl, rfl⟩ := hname.unique hname'
      rw [ih hrest']

/-! ### The resolver makes the run -/

theorem mem_names_of_lookup {name source : String} (h : definitions.lookup name = some source) :
    name ∈ definitions.map (·.1) := by
  obtain ⟨front, back, rfl, -⟩ := List.lookup_eq_some_iff.1 h
  simp

theorem resolvesPieces_expand {pending : List String} {resolve : String → Resolved → Option (List Char) × Resolved}
    (hresolve : ∀ name resolved,
      Resolves definitions pending name resolved (resolve name resolved).1 (resolve name resolved).2)
    (list : List Piece) (resolved : Resolved) :
    ResolvesPieces definitions pending list resolved (expand resolve list resolved).1
      (expand resolve list resolved).2 := by
  induction list generalizing resolved with
  | nil => exact .nil
  | cons piece rest ih =>
    cases piece with
    | char c => exact .char (ih resolved)
    | reference name => exact .reference (hresolve name resolved) (ih (resolve name resolved).2)

/-- Distinct pending names with definitions leave levels enough for a run. -/
theorem resolves_of_levels {levels : Nat} {pending : List String} (hdistinct : pending.Nodup)
    (hdefined : pending ⊆ definitions.map (·.1)) (hlevels : definitions.length < levels + pending.length)
    (name : String) (resolved : Resolved) :
    Resolves definitions pending name resolved (resolveName definitions levels pending name resolved).1
      (resolveName definitions levels pending name resolved).2 := by
  induction levels generalizing pending name resolved with
  | zero =>
    -- more pending names than definitions
    have hle := (List.subperm_of_subset hdistinct hdefined).length_le
    rw [List.length_map] at hle
    omega
  | succ levels ih =>
    rw [resolveName]
    cases hkept : resolved.lookup name with
    | some text => exact .kept hkept
    | none =>
      by_cases hfree : name ∈ pending
      · simpa [hfree] using Resolves.pending hkept hfree
      · cases hsource : definitions.lookup name with
        | none => simpa [hfree] using Resolves.unknown hkept hfree hsource
        | some source =>
          have hdefined' : name :: pending ⊆ definitions.map (·.1) :=
            List.cons_subset.2 ⟨mem_names_of_lookup hsource, hdefined⟩
          have hlevels' : definitions.length < levels + (name :: pending).length := by
            rw [List.length_cons]
            omega
          have hpieces := resolvesPieces_expand (ih (List.nodup_cons.2 ⟨hfree, hdistinct⟩) hdefined' hlevels')
            (pieces source.toList) resolved
          simpa [hfree] using Resolves.defined hkept hfree hsource hpieces

/-- With one level more than definitions a name is resolved by a run. -/
theorem resolves_resolveName (definitions : Definitions) (name : String) (resolved : Resolved) :
    Resolves definitions [] name resolved (resolveName definitions (definitions.length + 1) [] name resolved).1
      (resolveName definitions (definitions.length + 1) [] name resolved).2 :=
  resolves_of_levels List.nodup_nil (List.nil_subset _) (by simp) name resolved

theorem resolvesNames_resolveNames (names : List String) (resolved : Resolved) :
    ResolvesNames definitions names resolved (resolveNames definitions names resolved) := by
  induction names generalizing resolved with
  | nil => exact .nil
  | cons name rest ih => exact .cons (resolves_resolveName definitions name resolved) (ih _)

/-- Resolving definitions ends, and with the result of the one run. -/
theorem resolvesNames_iff {texts : List (String × List Char)} :
    ResolvesNames definitions (definitions.map (·.1)) [] texts ↔ texts = resolveDefinitions definitions := by
  constructor
  · exact fun h => h.unique (resolvesNames_resolveNames _ _)
  · rintro rfl
    exact resolvesNames_resolveNames _ _

end SequenceNotation.Pattern
