import Mathlib.Logic.Relation
import SequenceNotation.Proofs.Pattern.Resolution

/-!
# Plain expansions

The plain expansion of a name is its text with the plain expansion of each reference in its place, in a group, and a
class that matches nothing for an unknown name.  It exists where no references lead into a cycle.  There the resolver
finds it, whatever texts have been kept before and whoever asks: no name without a way into a cycle is pending when it
is asked for, and what is kept for such a name is its plain expansion.  A name from which a cycle is reached may be
resolved to another text if the definitions stand in another order.
-/

namespace SequenceNotation.Pattern

open SequenceNotation.Text

variable {definitions : Definitions}

/-! ### Texts in the places of references -/

/-- The text of pieces with a text for each reference, in a group. -/
def fillIn (texts : String → List Char) : List Piece → List Char
  | [] => []
  | .char c :: rest => c :: fillIn texts rest
  | .reference name :: rest => grouped (texts name) ++ fillIn texts rest

theorem fillIn_congr {texts texts' : String → List Char} {list : List Piece}
    (h : ∀ name, .reference name ∈ list → texts name = texts' name) : fillIn texts list = fillIn texts' list := by
  induction list with
  | nil => rfl
  | cons piece rest ih =>
    have hrest := ih fun name hmem => h name (List.mem_cons_of_mem _ hmem)
    cases piece with
    | char c => simp [fillIn, hrest]
    | reference name => simp [fillIn, hrest, h name List.mem_cons_self]

/-- The plain expansion of a name. -/
inductive Expands (definitions : Definitions) : String → List Char → Prop
  | unknown {name} (h : definitions.lookup name = none) : Expands definitions name matchesNothing
  | defined {name source} {texts : String → List Char} (hsource : definitions.lookup name = some source)
      (htexts : ∀ other, .reference other ∈ pieces source.toList → Expands definitions other (texts other)) :
      Expands definitions name (fillIn texts (pieces source.toList))

/-- Texts for all names such that each of them is the text of its definition with the others in it. -/
def IsExpansion (definitions : Definitions) (texts : String → List Char) : Prop :=
  ∀ name, texts name =
    match definitions.lookup name with
    | none => matchesNothing
    | some source => fillIn texts (pieces source.toList)

theorem Expands.eq_of_isExpansion {name : String} {text : List Char} (h : Expands definitions name text)
    {texts : String → List Char} (htexts : IsExpansion definitions texts) : text = texts name := by
  induction h with
  | unknown hunknown => rw [htexts, hunknown]
  | @defined name source texts' hsource _ ih =>
    rw [htexts name, hsource]
    exact fillIn_congr ih

theorem Expands.unique {name : String} {text text' : List Char} (h : Expands definitions name text)
    (h' : Expands definitions name text') : text = text' := by
  induction h generalizing text' with
  | unknown hunknown => cases h' <;> simp_all
  | defined hsource _ ih =>
    cases h' with
    | unknown hunknown => simp_all
    | defined hsource' htexts' =>
      obtain rfl := Option.some.inj (hsource.symm.trans hsource')
      exact fillIn_congr fun other hmem => ih other hmem (htexts' other hmem)

/-- Plain expansions of all names solve the equations of the definitions. -/
theorem isExpansion_of_expands {texts : String → List Char} (h : ∀ name, Expands definitions name (texts name)) :
    IsExpansion definitions texts := by
  intro name
  cases hlookup : definitions.lookup name with
  | none => exact (h name).unique (.unknown hlookup)
  | some source => exact (h name).unique (.defined hlookup fun other _ => h other)

/-! ### Ways into cycles -/

/-- The text of a definition refers to another name. -/
def Mentions (definitions : Definitions) (name other : String) : Prop :=
  ∃ source, definitions.lookup name = some source ∧ .reference other ∈ pieces source.toList

/-- No name leads back to itself. -/
def Acyclic (definitions : Definitions) : Prop :=
  ∀ name, ¬Relation.TransGen (Mentions definitions) name name

/-- No references lead from a name into a cycle. -/
def AcyclicFrom (definitions : Definitions) (name : String) : Prop :=
  ∀ other, Relation.ReflTransGen (Mentions definitions) name other → ¬Relation.TransGen (Mentions definitions) other other

theorem Acyclic.acyclicFrom (h : Acyclic definitions) (name : String) : AcyclicFrom definitions name :=
  fun other _ => h other

theorem AcyclicFrom.mentioned {name other : String} (h : AcyclicFrom definitions name)
    (hmentions : Mentions definitions name other) : AcyclicFrom definitions other :=
  fun last hway => h last (.head hmentions hway)

/-- A name has no way into a cycle if none of the names that it mentions has one. -/
theorem acyclicFrom_of_mentioned {name : String}
    (h : ∀ next, Mentions definitions name next → AcyclicFrom definitions next) : AcyclicFrom definitions name := by
  intro other hway hcycle
  rcases Relation.ReflTransGen.cases_head hway with rfl | ⟨next, hmentions, hrest⟩
  · -- a cycle through the name is one through what it mentions first
    obtain ⟨next, hmentions, hback⟩ := Relation.TransGen.head'_iff.1 hcycle
    exact h next hmentions name hback hcycle
  · exact h next hmentions other hrest hcycle

/-- A name with a plain expansion has no way into a cycle. -/
theorem Expands.acyclicFrom {name : String} {text : List Char} (h : Expands definitions name text) :
    AcyclicFrom definitions name := by
  induction h with
  | unknown hunknown =>
    apply acyclicFrom_of_mentioned
    rintro next ⟨source, hsource, -⟩
    cases hunknown.symm.trans hsource
  | defined hsource _ ih =>
    apply acyclicFrom_of_mentioned
    rintro next ⟨source', hsource', hmem⟩
    obtain rfl := Option.some.inj (hsource.symm.trans hsource')
    exact ih next hmem

/-! ### What runs give -/

/-- What is kept for a name without a way into a cycle is its plain expansion. -/
def KeepsExpansions (definitions : Definitions) (resolved : Resolved) : Prop :=
  ∀ name text, resolved.lookup name = some text → AcyclicFrom definitions name → Expands definitions name text

theorem keepsExpansions_nil : KeepsExpansions definitions [] := by
  intro name text h
  simp at h

theorem KeepsExpansions.cons {resolved : Resolved} (hkept : KeepsExpansions definitions resolved) {name : String}
    {text : List Char} (h : AcyclicFrom definitions name → Expands definitions name text) :
    KeepsExpansions definitions ((name, text) :: resolved) := by
  intro other text' hlookup
  by_cases heq : other = name
  · subst heq
    obtain rfl : text = text' := by simpa using hlookup
    exact h
  · rw [List.lookup_cons, beq_false_of_ne heq] at hlookup
    exact hkept other text' hlookup

/-- Resolving a name keeps plain expansions and gives its own one, if all pending names lead to it. -/
def GivesExpansion (definitions : Definitions) (pending : List String) (name : String) (resolved : Resolved)
    (text : Option (List Char)) (resolved' : Resolved) : Prop :=
  KeepsExpansions definitions resolved → (∀ other ∈ pending, Relation.TransGen (Mentions definitions) other name) →
    KeepsExpansions definitions resolved' ∧
      (AcyclicFrom definitions name → Expands definitions name (text.getD matchesNothing))

/-- Resolving the references among pieces keeps plain expansions and fills them in, if all pending names lead to them. -/
def GivesExpansions (definitions : Definitions) (pending : List String) (list : List Piece) (resolved : Resolved)
    (text : List Char) (resolved' : Resolved) : Prop :=
  KeepsExpansions definitions resolved →
    (∀ other ∈ pending, ∀ inner, .reference inner ∈ list → Relation.TransGen (Mentions definitions) other inner) →
    KeepsExpansions definitions resolved' ∧
      ((∀ inner, .reference inner ∈ list → AcyclicFrom definitions inner) →
        ∃ texts, (∀ inner, .reference inner ∈ list → Expands definitions inner (texts inner)) ∧
          text = fillIn texts list)

theorem GivesExpansion.defined {pending : List String} {name source : String} {resolved resolved' : Resolved}
    {text : List Char} (hsource : definitions.lookup name = some source)
    (h : GivesExpansions definitions (name :: pending) (pieces source.toList) resolved text resolved') :
    GivesExpansion definitions pending name resolved (some text) ((name, text) :: resolved') := by
  intro hkept hpending
  have hmentions {inner : String} (hmem : .reference inner ∈ pieces source.toList) : Mentions definitions name inner :=
    ⟨source, hsource, hmem⟩
  have hpending' : ∀ other ∈ name :: pending, ∀ inner, .reference inner ∈ pieces source.toList →
      Relation.TransGen (Mentions definitions) other inner := by
    intro other hother inner hmem
    rcases List.mem_cons.1 hother with rfl | hother
    · exact .single (hmentions hmem)
    · exact (hpending other hother).tail (hmentions hmem)
  obtain ⟨hkept', hpieces⟩ := h hkept hpending'
  have hown : AcyclicFrom definitions name → Expands definitions name text := by
    intro hacyclic
    obtain ⟨texts, htexts, rfl⟩ := hpieces fun inner hmem => hacyclic.mentioned (hmentions hmem)
    exact .defined hsource htexts
  exact ⟨hkept'.cons hown, hown⟩

theorem GivesExpansions.char {pending : List String} {c : Char} {rest : List Piece} {resolved resolved' : Resolved}
    {text : List Char} (h : GivesExpansions definitions pending rest resolved text resolved') :
    GivesExpansions definitions pending (.char c :: rest) resolved (c :: text) resolved' := by
  intro hkept hpending
  obtain ⟨hkept', hrest⟩ := h hkept fun other hother inner hmem =>
    hpending other hother inner (List.mem_cons_of_mem _ hmem)
  refine ⟨hkept', fun hacyclic => ?_⟩
  obtain ⟨texts, htexts, rfl⟩ := hrest fun inner hmem => hacyclic inner (List.mem_cons_of_mem _ hmem)
  exact ⟨texts, by simpa using htexts, rfl⟩

theorem exists_fillIn_reference {name : String} {own : List Char} (hown : Expands definitions name own)
    {rest : List Piece} {texts : String → List Char}
    (htexts : ∀ inner, .reference inner ∈ rest → Expands definitions inner (texts inner)) :
    ∃ texts', (∀ inner, .reference inner ∈ .reference name :: rest → Expands definitions inner (texts' inner)) ∧
      grouped own ++ fillIn texts rest = fillIn texts' (.reference name :: rest) := by
  refine ⟨fun inner => if inner = name then own else texts inner, ?_, ?_⟩
  · intro inner hmem
    by_cases heq : inner = name
    · simpa [heq] using hown
    · simpa [heq] using htexts inner (by simpa [heq] using hmem)
  · -- the name may be mentioned again in the rest, where it has the same expansion
    have hsame : fillIn texts rest = fillIn (fun inner => if inner = name then own else texts inner) rest := by
      apply fillIn_congr
      intro inner hmem
      by_cases heq : inner = name
      · subst heq
        simpa using (htexts inner hmem).unique hown
      · simp [heq]
    simp [fillIn, ← hsame]

theorem GivesExpansions.reference {pending : List String} {name : String} {rest : List Piece}
    {resolved resolved' resolved'' : Resolved} {inner : Option (List Char)} {text : List Char}
    (hname : GivesExpansion definitions pending name resolved inner resolved')
    (hrest : GivesExpansions definitions pending rest resolved' text resolved'') :
    GivesExpansions definitions pending (.reference name :: rest) resolved
      (grouped (inner.getD matchesNothing) ++ text) resolved'' := by
  intro hkept hpending
  obtain ⟨hkept', hown⟩ := hname hkept fun other hother => hpending other hother name List.mem_cons_self
  obtain ⟨hkept'', hothers⟩ := hrest hkept' fun other hother last hmem =>
    hpending other hother last (List.mem_cons_of_mem _ hmem)
  refine ⟨hkept'', fun hacyclic => ?_⟩
  obtain ⟨texts, htexts, rfl⟩ := hothers fun last hmem => hacyclic last (List.mem_cons_of_mem _ hmem)
  exact exists_fillIn_reference (hown (hacyclic name List.mem_cons_self)) htexts

/-- A run resolves a name without a way into a cycle to its plain expansion, if every pending name leads to it. -/
theorem Resolves.givesExpansion {pending : List String} {name : String} {resolved resolved' : Resolved}
    {text : Option (List Char)} (h : Resolves definitions pending name resolved text resolved') :
    GivesExpansion definitions pending name resolved text resolved' := by
  -- along the run: one case for each way in which a name or a piece is done
  refine @Resolves.rec definitions (fun pending name resolved text resolved' _ =>
      GivesExpansion definitions pending name resolved text resolved')
    (fun pending list resolved text resolved' _ => GivesExpansions definitions pending list resolved text resolved')
    ?kept ?pending ?unknown ?defined ?nil ?char ?reference _ _ _ _ _ h
  case kept =>
    intro pending name resolved text hlookup hkept _
    exact ⟨hkept, hkept name text hlookup⟩
  case pending =>
    intro pending name resolved _ hmem hkept hpending
    -- a pending name leads to itself
    exact ⟨hkept, fun hacyclic => absurd (hpending name hmem) (hacyclic name .refl)⟩
  case unknown =>
    intro pending name resolved _ _ hunknown hkept _
    exact ⟨hkept, fun _ => .unknown hunknown⟩
  case defined =>
    intro pending name resolved source text resolved' _ _ hsource _ ih
    exact .defined hsource ih
  case nil =>
    intro pending resolved hkept _
    exact ⟨hkept, fun _ => ⟨fun _ => [], by simp, rfl⟩⟩
  case char =>
    intro pending c rest resolved text resolved' _ ih
    exact ih.char
  case reference =>
    intro pending name rest resolved inner resolved' text resolved'' _ _ ihname ihrest
    exact .reference ihname ihrest

/-- The same for a name that is resolved while no others are pending. -/
theorem Resolves.expands {name : String} {resolved resolved' : Resolved} {text : Option (List Char)}
    (h : Resolves definitions [] name resolved text resolved') (hkept : KeepsExpansions definitions resolved) :
    KeepsExpansions definitions resolved' ∧
      (AcyclicFrom definitions name → Expands definitions name (text.getD matchesNothing)) :=
  h.givesExpansion hkept (by simp)

/-- Every name without a way into a cycle has a plain expansion. -/
theorem AcyclicFrom.exists_expands {name : String} (h : AcyclicFrom definitions name) :
    ∃ text, Expands definitions name text :=
  ⟨_, ((resolves_resolveName definitions name []).expands keepsExpansions_nil).2 h⟩

/-- A name that is resolved while no others are pending has its plain expansion, if there is one. -/
theorem Resolves.getD_eq {name : String} {resolved resolved' : Resolved} {text : Option (List Char)}
    (h : Resolves definitions [] name resolved text resolved') (hkept : KeepsExpansions definitions resolved)
    {expansion : List Char} (hexpansion : Expands definitions name expansion) : text.getD matchesNothing = expansion :=
  ((h.expands hkept).2 hexpansion.acyclicFrom).unique hexpansion

theorem ResolvesNames.eq_map {names : List String} {resolved : Resolved} {result : List (String × List Char)}
    (h : ResolvesNames definitions names resolved result) (hkept : KeepsExpansions definitions resolved)
    {texts : String → List Char} (htexts : ∀ name ∈ names, Expands definitions name (texts name)) :
    result = names.map fun name => (name, withoutBlanks (texts name)) := by
  induction h with
  | nil => rfl
  | cons hname _ ih =>
    obtain ⟨hown, hothers⟩ := List.forall_mem_cons.1 htexts
    simp [hname.getD_eq hkept hown, ih (hname.expands hkept).1 hothers]

theorem ResolvesNames.lookup_eq {names : List String} {resolved : Resolved} {result : List (String × List Char)}
    (h : ResolvesNames definitions names resolved result) (hkept : KeepsExpansions definitions resolved) {name : String}
    {text : List Char} (hexpansion : Expands definitions name text) :
    result.lookup name = if name ∈ names then some (withoutBlanks text) else none := by
  induction h with
  | nil => rfl
  | @cons first rest resolved text' resolved' result hname _ ih =>
    by_cases heq : name = first
    · subst heq
      simp [hname.getD_eq hkept hexpansion]
    · simp [List.lookup_cons, heq, beq_false_of_ne heq, ih (hname.expands hkept).1]

/-! ### Resolved definitions -/

/-- Definitions whose names have plain expansions are resolved to these. -/
theorem resolveDefinitions_eq_map {texts : String → List Char}
    (htexts : ∀ name ∈ definitions.map (·.1), Expands definitions name (texts name)) :
    resolveDefinitions definitions = (definitions.map (·.1)).map fun name => (name, withoutBlanks (texts name)) :=
  (resolvesNames_resolveNames _ _).eq_map keepsExpansions_nil htexts

/-- A name with a plain expansion is resolved to it, whatever the other names refer to. -/
theorem lookup_resolveDefinitions {name : String} {text : List Char} (h : Expands definitions name text) :
    (resolveDefinitions definitions).lookup name =
      if name ∈ definitions.map (·.1) then some (withoutBlanks text) else none :=
  (resolvesNames_resolveNames _ _).lookup_eq keepsExpansions_nil h

/-- Resolving definitions ends, cycles or not, and without cycles it gives the plain expansions: the only texts that
solve the equations of the definitions. -/
theorem resolution_ends_and_expands (definitions : Definitions) :
    (∀ result, ResolvesNames definitions (definitions.map (·.1)) [] result ↔ result = resolveDefinitions definitions) ∧
      (Acyclic definitions →
        (∃! texts, IsExpansion definitions texts) ∧
          ∀ texts, IsExpansion definitions texts →
            resolveDefinitions definitions =
              (definitions.map (·.1)).map fun name => (name, withoutBlanks (texts name))) := by
  refine ⟨fun _ => resolvesNames_iff, fun hacyclic => ?_⟩
  have hexpands (name : String) : ∃ text, Expands definitions name text := (hacyclic.acyclicFrom name).exists_expands
  constructor
  · obtain ⟨texts, htexts⟩ := Classical.skolem.1 hexpands
    refine ⟨texts, isExpansion_of_expands htexts, fun texts' htexts' => ?_⟩
    funext name
    exact ((htexts name).eq_of_isExpansion htexts').symm
  · intro texts htexts
    apply resolveDefinitions_eq_map
    intro name _
    obtain ⟨text, htext⟩ := hexpands name
    exact htext.eq_of_isExpansion htexts ▸ htext

/-! ### The order of the definitions -/

theorem lookup_perm {definitions definitions' : Definitions} (hperm : definitions.Perm definitions')
    (hdistinct : (definitions.map (·.1)).Nodup) (name : String) :
    definitions.lookup name = definitions'.lookup name := by
  induction hperm with
  | nil => rfl
  | cons entry _ ih =>
    obtain ⟨first, source⟩ := entry
    rw [List.lookup_cons, List.lookup_cons, ih (List.nodup_cons.1 hdistinct).2]
  | swap entry entry' rest =>
    obtain ⟨first, source⟩ := entry
    obtain ⟨second, source'⟩ := entry'
    have hne : second ≠ first := by
      have hnot := (List.nodup_cons.1 hdistinct).1
      simp only [List.map_cons, List.mem_cons, not_or] at hnot
      exact hnot.1
    by_cases hfirst : name = first
    · subst hfirst
      simp [List.lookup_cons, beq_false_of_ne hne.symm]
    · simp [List.lookup_cons, beq_false_of_ne hfirst]
  | trans hperm _ ih ih' =>
    rw [ih hdistinct, ih' ((hperm.map _).nodup_iff.1 hdistinct)]

theorem Expands.congr {definitions definitions' : Definitions}
    (hlookup : ∀ name, definitions.lookup name = definitions'.lookup name) {name : String} {text : List Char}
    (h : Expands definitions name text) : Expands definitions' name text := by
  induction h with
  | unknown hunknown => exact .unknown (hlookup _ ▸ hunknown)
  | defined hsource _ ih => exact .defined (hlookup _ ▸ hsource) ih

/-- The order of the definitions does not change the text of a name without a way into a cycle. -/
theorem lookup_resolveDefinitions_perm {definitions definitions' : Definitions}
    (hdistinct : (definitions.map (·.1)).Nodup) (hperm : definitions.Perm definitions') {name : String}
    (hacyclic : AcyclicFrom definitions name) :
    (resolveDefinitions definitions).lookup name = (resolveDefinitions definitions').lookup name := by
  obtain ⟨text, htext⟩ := hacyclic.exists_expands
  rw [lookup_resolveDefinitions htext, lookup_resolveDefinitions (htext.congr (lookup_perm hperm hdistinct))]
  simp only [(hperm.map _).mem_iff]

/-- A name in a cycle may have another text in another order: what is asked for first is pending for the others. -/
theorem cycle_texts_depend_on_order :
    (resolveDefinitions [("a", "{{b}}"), ("b", "q{{a}}")]).lookup "a" ≠
      (resolveDefinitions [("b", "q{{a}}"), ("a", "{{b}}")]).lookup "a" := by
  have hfirst : resolveDefinitions [("a", "{{b}}"), ("b", "q{{a}}")] =
      [("a", "(?:q(?:[^\\s\\S]))".toList), ("b", "q(?:[^\\s\\S])".toList)] := by decide +kernel
  have hsecond : resolveDefinitions [("b", "q{{a}}"), ("a", "{{b}}")] =
      [("b", "q(?:(?:[^\\s\\S]))".toList), ("a", "(?:[^\\s\\S])".toList)] := by decide +kernel
  rw [hfirst, hsecond]
  decide

end SequenceNotation.Pattern
