import SequenceNotation.Proofs.Pattern.PlainExpansion

/-!
# Expansions by levels

Where all references have definitions, the expansion of a name can be computed within a number of levels.  It is the
plain expansion, so that definitions which have such expansions are resolved to them.
-/

namespace SequenceNotation.Pattern

open SequenceNotation.Text

/-! ### Pieces along the text -/

/-- The pieces of a text behind a number of its characters, by recursion on the text alone. -/
def piecesBehind : (skipped : Nat) → List Char → List Piece
  | _, [] => []
  | skipped + 1, _ :: rest => piecesBehind skipped rest
  | 0, c :: rest =>
    match if c = '\x7b' then referenceAt? rest else none with
    | some (name, length) => .reference name :: piecesBehind length rest
    | none => .char c :: piecesBehind 0 rest

theorem piecesBehind_eq (skipped : Nat) (text : List Char) : piecesBehind skipped text = pieces (text.drop skipped) := by
  induction text generalizing skipped with
  | nil => simp [piecesBehind, pieces]
  | cons c rest ih =>
    cases skipped with
    | succ skipped => exact ih skipped
    | zero =>
      rw [List.drop_zero, piecesBehind, pieces]
      cases if c = '\x7b' then referenceAt? rest else none with
      | some found => exact congrArg (.reference found.1 :: ·) (ih found.2)
      | none => exact congrArg (.char c :: ·) (ih 0)

/-! ### Expansions -/

/-- The text of pieces, if every reference among them has a text. -/
def expandPieces (inner : String → Option (List Char)) : List Piece → Option (List Char)
  | [] => some []
  | .char c :: rest => (expandPieces inner rest).map (c :: ·)
  | .reference name :: rest =>
    (inner name).bind fun text => (expandPieces inner rest).map (grouped text ++ ·)

/-- The expansion of a name, if references are nested less deeply than `levels`. -/
def expansion? (definitions : Definitions) : (levels : Nat) → String → Option (List Char)
  | 0, _ => none
  | levels + 1, name =>
    (definitions.lookup name).bind fun source =>
      expandPieces (expansion? definitions levels) (piecesBehind 0 source.toList)

variable {definitions : Definitions}

theorem expandPieces_mono {inner inner' : String → Option (List Char)}
    (h : ∀ name text, inner name = some text → inner' name = some text) {list : List Piece} {text : List Char}
    (htext : expandPieces inner list = some text) : expandPieces inner' list = some text := by
  induction list generalizing text with
  | nil => exact htext
  | cons piece rest ih =>
    cases piece with
    | char c =>
      obtain ⟨behind, hbehind, rfl⟩ := Option.map_eq_some_iff.1 htext
      exact Option.map_eq_some_iff.2 ⟨behind, ih hbehind, rfl⟩
    | reference name =>
      obtain ⟨own, hown, hrest⟩ := Option.bind_eq_some_iff.1 htext
      obtain ⟨behind, hbehind, rfl⟩ := Option.map_eq_some_iff.1 hrest
      exact Option.bind_eq_some_iff.2 ⟨own, h name own hown, Option.map_eq_some_iff.2 ⟨behind, ih hbehind, rfl⟩⟩

theorem expansion?_succ {levels : Nat} {name : String} {text : List Char}
    (h : expansion? definitions levels name = some text) : expansion? definitions (levels + 1) name = some text := by
  induction levels generalizing name text with
  | zero => cases h
  | succ levels ih =>
    obtain ⟨source, hsource, hpieces⟩ := Option.bind_eq_some_iff.1 h
    exact Option.bind_eq_some_iff.2 ⟨source, hsource, expandPieces_mono (fun _ _ => ih) hpieces⟩

theorem expansion?_mono {levels levels' : Nat} (hle : levels ≤ levels') {name : String} {text : List Char}
    (h : expansion? definitions levels name = some text) : expansion? definitions levels' name = some text := by
  induction hle with
  | refl => exact h
  | step _ ih => exact expansion?_succ ih

theorem expansion?_unique {levels levels' : Nat} {name : String} {text text' : List Char}
    (h : expansion? definitions levels name = some text) (h' : expansion? definitions levels' name = some text') :
    text = text' := by
  rcases Nat.le_total levels levels' with hle | hle
  · exact Option.some.inj ((expansion?_mono hle h).symm.trans h')
  · exact Option.some.inj (h.symm.trans (expansion?_mono hle h'))

/-- More definitions keep the expansions that there are. -/
theorem expansion?_extend {definitions' : Definitions}
    (h : ∀ name source, definitions.lookup name = some source → definitions'.lookup name = some source)
    {levels : Nat} {name : String} {text : List Char} (htext : expansion? definitions levels name = some text) :
    expansion? definitions' levels name = some text := by
  induction levels generalizing name text with
  | zero => cases htext
  | succ levels ih =>
    obtain ⟨source, hsource, hpieces⟩ := Option.bind_eq_some_iff.1 htext
    exact Option.bind_eq_some_iff.2 ⟨source, h name source hsource, expandPieces_mono (fun _ _ => ih) hpieces⟩

/-- The names that a text refers to. -/
def references (text : List Char) : List String :=
  (piecesBehind 0 text).filterMap fun
    | .reference name => some name
    | .char _ => none

theorem isSome_expandPieces {inner : String → Option (List Char)} {list : List Piece}
    (h : ∀ name, .reference name ∈ list → (inner name).isSome) : (expandPieces inner list).isSome := by
  induction list with
  | nil => rfl
  | cons piece rest ih =>
    obtain ⟨behind, hbehind⟩ := Option.isSome_iff_exists.1 (ih fun name hmem => h name (List.mem_cons_of_mem _ hmem))
    cases piece with
    | char c => exact Option.isSome_iff_exists.2 ⟨c :: behind, congrArg (Option.map (c :: ·)) hbehind⟩
    | reference name =>
      obtain ⟨own, hown⟩ := Option.isSome_iff_exists.1 (h name List.mem_cons_self)
      refine Option.isSome_iff_exists.2 ⟨grouped own ++ behind, ?_⟩
      show (inner name).bind (fun text => (expandPieces inner rest).map (grouped text ++ ·)) = _
      rw [hown, hbehind]
      rfl

/-- A name has an expansion if all names that its text refers to have one. -/
theorem isSome_expansion? {levels : Nat} {name source : String} {text : List Char}
    (hlookup : definitions.lookup name = some source) (htext : source.toList = text)
    (h : ∀ other ∈ references text, (expansion? definitions levels other).isSome) :
    (expansion? definitions (levels + 1) name).isSome := by
  show ((definitions.lookup name).bind fun source => expandPieces _ (piecesBehind 0 source.toList)).isSome
  rw [hlookup]
  show (expandPieces _ (piecesBehind 0 source.toList)).isSome
  rw [htext]
  exact isSome_expandPieces fun other hmem => h other (List.mem_filterMap.2 ⟨_, hmem, rfl⟩)

/-- The expansion of a name from the characters of its text. -/
theorem expansion?_of_source {levels : Nat} {name source result : String} {text chars : List Char}
    (hlookup : definitions.lookup name = some source) (htext : source.toList = text) (hresult : result.toList = chars)
    (h : expandPieces (expansion? definitions levels) (piecesBehind 0 text) = some chars) :
    expansion? definitions (levels + 1) name = some result.toList := by
  show ((definitions.lookup name).bind fun source => expandPieces _ (piecesBehind 0 source.toList)) = _
  rw [hlookup]
  show expandPieces _ (piecesBehind 0 source.toList) = _
  rw [htext, hresult, h]

/-! ### Resolving -/

/-- Pieces are expanded by the texts of the references among them. -/
theorem fillIn_of_expandPieces {inner : String → Option (List Char)} {list : List Piece} {text : List Char}
    (h : expandPieces inner list = some text) :
    text = fillIn (fun name => (inner name).getD []) list ∧ ∀ name, .reference name ∈ list → (inner name).isSome := by
  induction list generalizing text with
  | nil =>
    cases h
    exact ⟨rfl, by simp⟩
  | cons piece rest ih =>
    cases piece with
    | char c =>
      obtain ⟨behind, hbehind, rfl⟩ := Option.map_eq_some_iff.1 h
      obtain ⟨rfl, hrest⟩ := ih hbehind
      exact ⟨rfl, by simpa using hrest⟩
    | reference name =>
      obtain ⟨own, hown, hrest⟩ := Option.bind_eq_some_iff.1 h
      obtain ⟨behind, hbehind, rfl⟩ := Option.map_eq_some_iff.1 hrest
      obtain ⟨rfl, hothers⟩ := ih hbehind
      refine ⟨by simp [fillIn, hown], fun other hmem => ?_⟩
      by_cases heq : other = name
      · simp [heq, hown]
      · exact hothers other (by simpa [heq] using hmem)

/-- An expansion is a plain one. -/
theorem expands_of_expansion? {levels : Nat} {name : String} {text : List Char}
    (h : expansion? definitions levels name = some text) : Expands definitions name text := by
  induction levels generalizing name text with
  | zero => cases h
  | succ levels ih =>
    obtain ⟨source, hsource, hpieces⟩ := Option.bind_eq_some_iff.1 h
    rw [piecesBehind_eq, List.drop_zero] at hpieces
    obtain ⟨rfl, hothers⟩ := fillIn_of_expandPieces hpieces
    refine .defined hsource fun other hmem => ?_
    obtain ⟨own, hown⟩ := Option.isSome_iff_exists.1 (hothers other hmem)
    simpa [hown] using ih hown

/-- Where every name has an expansion, the definitions are resolved to these. -/
theorem resolveDefinitions_eq {texts : String → List Char}
    (h : ∀ name ∈ definitions.map (·.1), expansion? definitions (definitions.length + 1) name = some (texts name)) :
    resolveDefinitions definitions = (definitions.map (·.1)).map fun name => (name, withoutBlanks (texts name)) :=
  resolveDefinitions_eq_map fun name hname => expands_of_expansion? (h name hname)

end SequenceNotation.Pattern
