import SequenceNotation.Proofs.Script.Spelling

/-!
# Sources are cut without loss

The tokens of a source and what is skipped between them make up the source, up to its end or up to the text that cannot
be read.  Between tokens there are only blanks and comments, the text of a token spells it, and no token with a longer
text begins where it begins.  One step of the scanner prolongs such a cut, and a run of it follows by induction.
-/

namespace SequenceNotation.Script

open SequenceNotation.Number SequenceNotation.Text

/-! ### Gaps and tokens -/

/-- What may stand in front of a text between tokens: blanks, and comments, which go on to the end of their line. -/
inductive IsGap : List Char → List Char → Prop
  | nil {back : List Char} : IsGap [] back
  | blank {c : Char} {gap back : List Char} (hc : isSourceBlank c) (hgap : IsGap gap back) : IsGap (c :: gap) back
  | comment {line gap back : List Char} (hline : '\n' ∉ line) (hend : ∀ c ∈ (gap ++ back).head?, c = '\n')
    (hgap : IsGap gap back) : IsGap ('/' :: '/' :: (line ++ gap)) back

/-- No token with a longer text, and no comment, begins where a text stands in front of another. -/
structure IsLongest (word back : List Char) : Prop where
  no_token : ∀ longer token, longer <+: word ++ back → Spells longer token → longer.length ≤ word.length
  no_comment : ¬['/', '/'] <+: word ++ back

section

variable {c : Char} {rest : List Char} {n : Nat}

theorem IsGap.blanks {blanks gap back : List Char} (hblanks : ∀ c ∈ blanks, isSourceBlank c) (hgap : IsGap gap back) :
    IsGap (blanks ++ gap) back := by
  induction blanks with
  | nil => exact hgap
  | cons c blanks ih =>
    obtain ⟨hc, hrest⟩ := List.forall_mem_cons.1 hblanks
    exact (ih hrest).blank hc

theorem lexemeAt_skipped (h : lexemeAt c rest = (.skipped, n)) :
    isSourceBlank c ∧ n = runLength isSourceBlank rest ∨
      c = '/' ∧ rest.head? = some '/' ∧ n = runLength (· ≠ '\n') rest := by
  have hview := lexemeAt_view c rest
  rw [h] at hview
  cases hview with
  | blank hc => exact .inl ⟨hc, rfl⟩
  | comment hc hhead => exact .inr ⟨hc, hhead, rfl⟩

/-- What the scanner skips goes into the gap in front of what follows. -/
theorem isGap_of_skipped (h : lexemeAt c rest = (.skipped, n)) {gap back : List Char} (hrest : rest.drop n = gap ++ back)
    (hgap : IsGap gap back) : IsGap (c :: (rest.take n ++ gap)) back := by
  rcases lexemeAt_skipped h with ⟨hc, rfl⟩ | ⟨rfl, hhead, rfl⟩
  · rw [take_runLength]
    exact (hgap.blanks (List.all_eq_true.1 List.all_takeWhile)).blank hc
  · obtain ⟨text, rfl⟩ := List.head?_eq_some_iff.1 hhead
    rw [drop_runLength, List.dropWhile_cons_of_pos (by decide)] at hrest
    rw [take_runLength, List.takeWhile_cons_of_pos (by decide), List.cons_append]
    refine .comment (fun hmem => ?_) (fun c hc => ?_) hgap
    · have hline := List.all_eq_true.1 (List.all_takeWhile (p := (· ≠ '\n'))) '\n' hmem
      exact absurd hline (by decide)
    · -- the comment stops where its line does
      have hstop := List.head?_dropWhile_not (· ≠ '\n') text
      rw [hrest, hc] at hstop
      simpa using hstop

/-- No longer text than the one that is taken spells a token. -/
theorem isLongest_of_lexemeAt {token : Token} (h : lexemeAt c rest = (.token token, n)) :
    IsLongest (c :: rest.take n) (rest.drop n) where
  no_token := by
    intro longer token' hprefix hspells
    rw [List.cons_append, List.take_append_drop] at hprefix
    obtain ⟨d, word, rfl⟩ := List.exists_cons_of_ne_nil hspells.ne_nil
    obtain ⟨rfl, back, rfl⟩ := List.cons_prefix_cons.1 hprefix
    -- What spells a token is taken as far as it goes, whatever stands behind it.
    have hle := (hspells.taken back).length_le
    rw [h] at hle
    have hn := lexemeAt_le d (word ++ back)
    rw [h] at hn
    rw [List.length_cons, List.length_cons, List.length_take_of_le hn]
    exact Nat.succ_le_succ hle
  no_comment := by
    rw [List.cons_append, List.take_append_drop]
    intro hslashes
    obtain ⟨rfl, hsecond⟩ := List.cons_prefix_cons.1 hslashes
    have hhead : rest.head? = some '/' := by
      obtain ⟨back, rfl⟩ := hsecond
      rfl
    unfold lexemeAt at h
    rw [if_neg (by decide), if_pos ⟨rfl, hhead⟩] at h
    cases h

end

/-! ### Runs of the scanner -/

/-- A text that the scanner reads is cut into tokens, each behind a gap, and a last gap.  The places of the tokens count
from the start of the text in front. -/
inductive CutAs : List Char → List Char → List PlacedToken → List Char → Prop
  | done {front gap rest : List Char} (hgap : IsGap gap rest) : CutAs front gap [] rest
  | token {front gap word read rest : List Char} {token : Token} {tokens : List PlacedToken}
    (hgap : IsGap gap (word ++ (read ++ rest))) (hspells : Spells word token) (hlongest : IsLongest word (read ++ rest))
    (hread : CutAs (front ++ gap ++ word) read tokens rest) :
    CutAs front (gap ++ (word ++ read))
      (⟨token, byteLength (front ++ gap), byteLength (front ++ gap ++ word)⟩ :: tokens) rest

/-- The tokens of a text up to its end or up to a fault, and the fault.  The text begins at a byte offset of the
source. -/
def readTokens (offset : Nat) : List Char → List PlacedToken × Option SyntaxFault
  | [] => ([], none)
  | c :: rest =>
    let (lexeme, n) := lexemeAt c rest
    let stop := offset + byteLength (c :: rest.take n)
    match lexeme with
    | .skipped => readTokens stop (rest.drop n)
    | .unreadable => ([], some (.unexpectedText (String.ofList (c :: rest.take n)) offset))
    | .token token =>
      let (tokens, fault?) := readTokens stop (rest.drop n)
      (⟨token, offset, stop⟩ :: tokens, fault?)
termination_by text => text.length
decreasing_by all_goals simp only [List.length_drop, List.length_cons]; omega

/-- What a run makes of a text as a whole: a fault leaves nothing of the tokens in front of it. -/
def outcomeOf : List PlacedToken × Option SyntaxFault → Except SyntaxFault (List PlacedToken)
  | (tokens, none) => .ok tokens
  | (_, some fault) => .error fault

theorem tokensFrom_eq (offset : Nat) (text : List Char) :
    tokensFrom offset text = outcomeOf (readTokens offset text) := by
  induction text using lexeme_induction generalizing offset with
  | nil =>
    rw [tokensFrom, readTokens]
    rfl
  | cons c rest ih =>
    rw [tokensFrom, readTokens]
    generalize lexemeAt c rest = taken at ih
    obtain ⟨lexeme, n⟩ := taken
    cases lexeme with
    | skipped => exact ih _
    | unreadable => rfl
    | token token =>
      dsimp only
      rw [ih]
      generalize readTokens _ _ = read
      obtain ⟨tokens, fault?⟩ := read
      cases fault? <;> rfl

/-- A run ends with the text, or with a fault at some of the text that begins at the byte offset. -/
def EndsAs (offset : Nat) (rest : List Char) : Option SyntaxFault → Prop
  | none => rest = []
  | some fault => ∃ text back, rest = text ++ back ∧ text ≠ [] ∧ fault = .unexpectedText (String.ofList text) offset

/-- What is skipped in front of a cut prolongs its first gap. -/
theorem CutAs.skipped {front skipped read rest : List Char} {tokens : List PlacedToken}
    (h : CutAs (front ++ skipped) read tokens rest)
    (hskipped : ∀ gap back, read ++ rest = gap ++ back → IsGap gap back → IsGap (skipped ++ gap) back) :
    CutAs front (skipped ++ read) tokens rest := by
  cases h with
  | done hgap => exact .done (hskipped _ _ rfl hgap)
  | @token _ gap word read _ token tokens hgap hspells hlongest hread =>
    have hprolonged := hskipped gap (word ++ (read ++ rest)) (by simp) hgap
    rw [List.append_assoc front] at hread ⊢
    rw [← List.append_assoc skipped]
    exact .token hprolonged hspells hlongest hread

/-- What the scanner reads is cut into the tokens that it returns. -/
theorem cutAs_readTokens (front text : List Char) :
    ∃ read rest, text = read ++ rest ∧ CutAs front read (readTokens (byteLength front) text).1 rest ∧
      EndsAs (byteLength (front ++ read)) rest (readTokens (byteLength front) text).2 := by
  induction text using lexeme_induction generalizing front with
  | nil =>
    rw [readTokens]
    exact ⟨[], [], rfl, .done .nil, rfl⟩
  | cons c rest ih =>
    rw [readTokens]
    cases hlexeme : lexemeAt c rest with
    | mk lexeme n =>
      -- the text of the lexeme is in front of what is read next
      rw [hlexeme] at ih
      obtain ⟨read, back, hrest, hcut, hend⟩ := ih (front ++ c :: rest.take n)
      have htext : c :: rest = (c :: rest.take n ++ read) ++ back := by
        rw [List.append_assoc, ← hrest, List.cons_append, List.take_append_drop]
      rw [List.append_assoc] at hend
      dsimp only
      rw [← byteLength_append]
      cases lexeme with
      | skipped =>
        refine ⟨_, back, htext, hcut.skipped fun gap back' heq hgap => ?_, hend⟩
        exact isGap_of_skipped hlexeme (hrest.trans heq) hgap
      | unreadable =>
        refine ⟨[], c :: rest, rfl, .done .nil, c :: rest.take n, rest.drop n, ?_, List.cons_ne_nil _ _, ?_⟩
        · rw [List.cons_append, List.take_append_drop]
        · rw [List.append_nil]
      | token token =>
        have hlongest := isLongest_of_lexemeAt hlexeme
        rw [show rest.drop n = read ++ back from hrest] at hlongest
        rw [← List.append_nil front] at hcut
        have htoken := CutAs.token .nil (spells_of_lexemeAt hlexeme) hlongest hcut
        rw [List.append_nil] at htoken
        exact ⟨_, back, htext, htoken, hend⟩

/-! ### Cuts of a source -/

/-- A text from the first byte offset to the second one stands in a source in front of another. -/
def StandsIn (source : List Char) (start stop : Nat) (text back : List Char) : Prop :=
  ∃ front, source = front ++ (text ++ back) ∧ byteLength front = start ∧ byteLength (front ++ text) = stop

/-- Where gaps begin and end if tokens stand between two byte offsets: in front of each token and behind the last. -/
def gapBounds (start stop : Nat) : List PlacedToken → List (Nat × Nat)
  | [] => [(start, stop)]
  | placed :: tokens => (start, placed.start) :: gapBounds placed.stop stop tokens

/-- A source is made up, between two byte offsets, of tokens and of gaps around them. -/
structure IsCut (source : List Char) (start stop : Nat) (tokens : List PlacedToken) : Prop where
  inRange : ∀ placed ∈ tokens, start ≤ placed.start ∧ placed.start < placed.stop ∧ placed.stop ≤ stop
  ordered : tokens.Pairwise fun placed later => placed.start < later.start ∧ placed.stop ≤ later.start
  gaps : ∀ bounds ∈ gapBounds start stop tokens, ∃ gap back, StandsIn source bounds.1 bounds.2 gap back ∧ IsGap gap back
  /-- The text of a token spells it and nothing else, and is the longest one that spells a token at its place. -/
  spelled : ∀ placed ∈ tokens, ∃ word back, StandsIn source placed.start placed.stop word back ∧
    (∀ token, Spells word token ↔ token = placed.token) ∧ IsLongest word back

theorem IsCut.done {source : List Char} {start stop : Nat} {gap back : List Char}
    (hstands : StandsIn source start stop gap back) (hgap : IsGap gap back) : IsCut source start stop [] where
  inRange := List.forall_mem_nil _
  ordered := .nil
  gaps := List.forall_mem_singleton.2 ⟨gap, back, hstands, hgap⟩
  spelled := List.forall_mem_nil _

/-- A token behind a gap is put in front of a cut that begins where it ends. -/
theorem IsCut.cons {source : List Char} {start stop : Nat} {placed : PlacedToken} {tokens : List PlacedToken}
    (hcut : IsCut source placed.stop stop tokens) (hstart : start ≤ placed.start) (hlt : placed.start < placed.stop)
    (hle : placed.stop ≤ stop) (hgap : ∃ gap back, StandsIn source start placed.start gap back ∧ IsGap gap back)
    (hspelled : ∃ word back, StandsIn source placed.start placed.stop word back ∧
      (∀ token, Spells word token ↔ token = placed.token) ∧ IsLongest word back) :
    IsCut source start stop (placed :: tokens) where
  inRange := by
    refine List.forall_mem_cons.2 ⟨⟨hstart, hlt, hle⟩, fun later hlater => ?_⟩
    obtain ⟨hbehind, hrange⟩ := hcut.inRange later hlater
    exact ⟨by omega, hrange⟩
  ordered := by
    refine List.pairwise_cons.2 ⟨fun later hlater => ?_, hcut.ordered⟩
    obtain ⟨hbehind, -⟩ := hcut.inRange later hlater
    exact ⟨by omega, hbehind⟩
  gaps := List.forall_mem_cons.2 ⟨hgap, hcut.gaps⟩
  spelled := List.forall_mem_cons.2 ⟨hspelled, hcut.spelled⟩

theorem byteLength_lt_append (front : List Char) {text : List Char} (hne : text ≠ []) :
    byteLength front < byteLength (front ++ text) := by
  have hpos : byteLength text ≠ 0 := fun hzero => hne (eq_nil_of_byteLength_eq_zero hzero)
  rw [byteLength_append]
  omega

theorem byteLength_le_append (front text : List Char) : byteLength front ≤ byteLength (front ++ text) := by
  rw [byteLength_append]
  exact Nat.le_add_right _ _

theorem CutAs.isCut {front read rest : List Char} {tokens : List PlacedToken} (h : CutAs front read tokens rest) :
    IsCut (front ++ (read ++ rest)) (byteLength front) (byteLength (front ++ read)) tokens := by
  induction h with
  | @done front gap rest hgap => exact .done ⟨front, rfl, rfl, rfl⟩ hgap
  | @token front gap word read rest token tokens hgap hspells hlongest _ ih =>
    have hsource : front ++ (gap ++ (word ++ read) ++ rest) = front ++ gap ++ word ++ (read ++ rest) := by
      simp only [List.append_assoc]
    have hstop : front ++ (gap ++ (word ++ read)) = front ++ gap ++ word ++ read := by
      simp only [List.append_assoc]
    rw [hsource, hstop]
    apply IsCut.cons ih
    · exact byteLength_le_append front gap
    · exact byteLength_lt_append (front ++ gap) hspells.ne_nil
    · exact byteLength_le_append (front ++ gap ++ word) read
    · refine ⟨gap, word ++ (read ++ rest), ⟨front, ?_, rfl, rfl⟩, hgap⟩
      simp only [List.append_assoc]
    · refine ⟨word, read ++ rest, ⟨front ++ gap, ?_, rfl, rfl⟩, fun token' => ?_, hlongest⟩
      · simp only [List.append_assoc]
      · exact ⟨fun hspells' => hspells'.unique hspells, fun heq => heq ▸ hspells⟩

/-- Every source that is read is cut into its tokens from start to end, and one that is not read is cut into tokens up
to the text that the fault is about. -/
theorem tokenize_isCut (source : String) :
    tokenize source = outcomeOf (readTokens 0 source.toList) ∧
      match readTokens 0 source.toList with
      | (tokens, none) => IsCut source.toList 0 (byteLength source.toList) tokens
      | (tokens, some fault) => ∃ text offset back, fault = .unexpectedText (String.ofList text) offset ∧ text ≠ [] ∧
          StandsIn source.toList offset (offset + byteLength text) text back ∧ IsCut source.toList 0 offset tokens := by
  refine ⟨tokensFrom_eq 0 source.toList, ?_⟩
  obtain ⟨read, rest, hsource, hcut, hend⟩ := cutAs_readTokens [] source.toList
  have hread := hcut.isCut
  rw [show byteLength [] = 0 from rfl] at hcut hend hread
  rw [List.nil_append, List.nil_append, ← hsource] at hread
  generalize readTokens 0 source.toList = result at hend hread
  obtain ⟨tokens, fault?⟩ := result
  cases fault? with
  | none =>
    obtain rfl : rest = [] := hend
    rw [List.append_nil] at hsource
    rw [hsource]
    rwa [hsource] at hread
  | some fault =>
    obtain ⟨text, back, rfl, hne, hfault⟩ := hend
    exact ⟨text, byteLength read, back, hfault, hne, ⟨read, hsource, rfl, byteLength_append read text⟩, hread⟩

end SequenceNotation.Script
