import SequenceNotation.Proofs.Notation.RemainderMask
import SequenceNotation.Proofs.Notation.SeparatedLines

/-!
# Where list literals end

A list literal in a line is read twice: the mask of the line says where it ends, and the list grammar takes its items.
The mask opens a literal at every quote and bracket and knows backslashes; the grammar has quotes around whole items
only, and no backslashes.  Both agree exactly if nothing is open in the mask behind the literal and no token ends
inside of it.  This is shown from the pattern of lists, which takes brackets up to the last one, and it holds for lists
of items in which quotes and brackets stand only inside of plain quotes.
-/

namespace SequenceNotation.Notation

open SequenceNotation.Text SequenceNotation.Pattern

/-! ### The pattern of lists -/

/-- A text in brackets on one line, as the segment for lists has it. -/
def bracketedPattern : Pattern :=
  .sequence (.one (.literal '[')) (.sequence (.repeated (.one .notLineFeed) 0 none) (.one (.literal ']')))

theorem pattern_ownBody (delimiter : Option String) :
    (Segments.ofDelimiter delimiter).pattern "own_body" =
      .sequence .start (.sequence
        (.choice
          (.sequence (.named "list" bracketedPattern)
            (.repeated (.named "start" (.repeated (.one .digit) 1 none)) 0 (some 1)))
          (.named "bare" (.repeated (.one (.items true [.range '[' '[', .range ']' ']'])) 1 none)))
        .finish) := by
  rw [pattern_of_plain delimiter (by decide) rfl String.toList_ofList (by decide)]
  decide

/-- A text in brackets is a list without a position. -/
theorem find?_ownBody (delimiter : Option String) {inner : List Char} (hline : '\n' ∉ inner) :
    (Segments.ofDelimiter delimiter).find? "own_body" ('[' :: (inner ++ [']'])) =
      some { before := [], matched := '[' :: (inner ++ [']']), after := [],
             captures := [("list", '[' :: (inner ++ [']']))] } := by
  have hinner : ∀ c ∈ inner, CharClass.notLineFeed.holds c := by
    intro c hc
    have hne : c ≠ '\n' := fun heq => hline (heq ▸ hc)
    simpa [CharClass.holds] using hne
  rw [Segments.find?, pattern_ownBody, find?_start]
  rw [foundAt?, matchAt, matchAt, firstOf_eq_or, matchAt]
  refine Option.or_eq_some_iff.2 (.inl ?_)
  simp only [matchAt, bracketedPattern]
  simp only [CharClass.holds, decide_true, if_true]
  refine matchAt_star_append hinner ?_
  rw [matchAt_star_cons (by decide)]
  simp [matchAt, repeatedly, firstOf, Captures.record]


/-- A text in brackets on one line is a list that begins with its first item. -/
theorem readOwnList_bracketed (delimiter : Option String) {inner : List Char} (hline : '\n' ∉ inner) :
    readOwnList (Segments.ofDelimiter delimiter) ('[' :: (inner ++ [']'])) =
      .ownList (readListLiteral (String.ofList ('[' :: (inner ++ [']'])))) 1 := by
  rw [readOwnList, find?_ownBody delimiter hline]
  rfl

/-! ### Lists that the grammar accepts -/

theorem quotedItem?_suffix {quote : Char} {text item rest : List Char}
    (h : quotedItem? quote text = some (item, rest)) : rest <:+ text := by
  have htrim : trimLeft text <:+ text := List.dropWhile_suffix isBlank
  unfold quotedItem? at h
  split at h
  · cases h
  · rename_i c inside hc
    rw [hc] at htrim
    split at h
    · split at h
      · cases h
      · rename_i d after hafter
        cases h
        have hinside : d :: after <:+ inside := by
          rw [← hafter]
          exact List.dropWhile_suffix _
        calc
          trimLeft after <:+ after := List.dropWhile_suffix isBlank
          _ <:+ d :: after := List.suffix_cons d after
          _ <:+ inside := hinside
          _ <:+ c :: inside := List.suffix_cons c inside
          _ <:+ text := htrim
    · cases h

theorem readItem_suffix (text : List Char) : (readItem text).2 <:+ text := by
  unfold readItem
  split
  · rename_i item h
    exact quotedItem?_suffix h
  · rename_i item h
    exact quotedItem?_suffix h
  · exact List.dropWhile_suffix isBare

/-- What the grammar takes for the inside of a list ends with the closing bracket. -/
theorem exists_of_readItems? {text : List Char} {items : List (List Char)} (h : readItems? text = some items) :
    ∃ inner, text = inner ++ [']'] := by
  fun_induction readItems? text generalizing items with
  | case1 => cases h
  | case2 text c rest hitem hclosed =>
    obtain ⟨rfl, rfl⟩ := hclosed
    obtain ⟨front, hfront⟩ := readItem_suffix text
    exact ⟨front, by rw [← hfront, hitem]⟩
  | case3 text c rest hitem hopen hseparator hshorter ih =>
    obtain ⟨behind, hbehind, -⟩ := Option.map_eq_some_iff.1 h
    obtain ⟨inner, rfl⟩ := ih hbehind
    obtain ⟨front, hfront⟩ := readItem_suffix text
    exact ⟨front ++ c :: inner, by rw [← hfront, hitem]; simp⟩
  | case4 => cases h


/-! ### Where the mask ends a list -/

/-- The mask of a literal shows where it ends: nothing is open behind the literal, and no token ends inside. -/
structure EndsInMask (literal : List Char) : Prop where
  closed : openAfter .none literal = .none
  whole : IsToken (EndsToken none keySpellings) (mask literal) []

/-- What ends a token ends it whatever follows. -/
theorem EndsToken.append {delimiter : Option (List Char)} {keys : List (List Char)} {text : List Char}
    (h : EndsToken delimiter keys text) (rest : List Char) : EndsToken delimiter keys (text ++ rest) := by
  rcases h with ⟨c, hhead, hc⟩ | ⟨word, hword, hprefix⟩ | ⟨key, hkey, hprefix⟩
  · obtain ⟨tail, rfl⟩ := List.head?_eq_some_iff.1 hhead
    exact .inl ⟨c, rfl, hc⟩
  · exact .inr (.inl ⟨word, hword, hprefix.trans (List.prefix_append text rest)⟩)
  · exact .inr (.inr ⟨key, hkey, hprefix.trans (List.prefix_append text rest)⟩)

/-- Behind a literal with a blank behind it, a token ends if and only if the mask shows where the literal ends. -/
theorem bodyEnd_iff_endsInMask (literal rest : List Char) :
    StartMark.ownList.bodyEnd (Segments.ofDelimiter none) (mask (literal ++ ' ' :: rest)) 0 = byteLength literal ↔
      EndsInMask literal := by
  have hlength : byteLength (mask literal) = byteLength literal := byteLength_maskFrom ..
  constructor
  · intro h
    -- Nothing is open where a body ends, so the mask of the whole is that of the literal and that of the rest.
    have hclosed : openAfter .none literal = .none :=
      (@openAfter_of_bodyEnd .ownList [] literal (' ' :: rest) h).resolve_left (List.cons_ne_nil ' ' rest)
    refine ⟨hclosed, ?_⟩
    obtain ⟨token, behind, hmask, htoken⟩ := exists_isToken (EndsToken (delimiterWord? none) keySpellings)
      (mask (literal ++ ' ' :: rest))
    have hend : byteLength token = byteLength (mask literal) := by
      have hown := boundaryAfter_isToken htoken []
      rw [List.nil_append, ← hmask] at hown
      exact hown.symm.trans (h.trans hlength.symm)
    rw [mask_append hclosed] at hmask
    have hsplit := splitAtByte_byteLength (mask literal) (mask (' ' :: rest))
    rw [hmask, ← hend, splitAtByte_byteLength] at hsplit
    obtain ⟨rfl, rfl⟩ := Prod.mk.inj hsplit
    refine ⟨fun front tail htail hne hends => htoken.inside front tail htail hne ?_, .inl rfl⟩
    rw [List.append_nil] at hends
    exact hends.append _
  · rintro ⟨hclosed, hwhole⟩
    -- A blank that showed in the mask of the literal would end the token there.
    have hclean : ∀ c ∈ mask literal, isBlank c = false ∧ c ≠ ' ' := by
      intro c hc
      have hblank : isBlank c = false := by
        obtain ⟨front, tail, heq⟩ := List.append_of_mem hc
        by_contra hblank
        exact hwhole.inside front (c :: tail) heq (List.cons_ne_nil c tail) (.inl ⟨c, rfl, by simpa using hblank⟩)
      refine ⟨hblank, ?_⟩
      rintro rfl
      cases hblank
    have hrest : (mask (' ' :: rest)).head? = some ' ' := head?_mask _
    have htoken := isSeparator_space.isToken (fun _ => id) hwhole hclean (.inr hrest)
    have hown := boundaryAfter_isToken htoken []
    rw [List.nil_append, ← mask_append hclosed] at hown
    exact hown.trans hlength

/-- A list literal with modifiers behind a blank is read as the list with the modifiers remaining, if and only if the
mask shows where the literal ends. -/
theorem classify_list_iff {inner modifiers : List Char} {items : List (List Char)}
    (hitems : readItems? inner = some items) (hline : '\n' ∉ inner)
    (hmodifiers : ∃ c ∈ modifiers.getLast?, isBlank c = false) (defaultStart : String) :
    classify (Segments.ofDelimiter none) defaultStart (String.ofList ('[' :: inner ++ ' ' :: modifiers)) =
        { start := .ownList (readListLiteral (String.ofList ('[' :: inner))) 1,
          remainder := String.ofList (' ' :: modifiers) } ↔
      EndsInMask ('[' :: inner) := by
  obtain ⟨items', rfl⟩ := exists_of_readItems? hitems
  generalize hliteral : '[' :: (items' ++ [']']) = literal
  have htrim : trim (literal ++ ' ' :: modifiers) = literal ++ ' ' :: modifiers := by
    obtain ⟨c, hlast, hc⟩ := hmodifiers
    obtain ⟨front, rfl⟩ := List.getLast?_eq_some_iff.1 hlast
    refine trim_of_ends (by rw [← hliteral]; exact (by decide : isBlank '[' = false)) ?_
    rw [← List.cons_append, ← List.append_assoc, List.getLast?_concat]
    exact hc
  have htaken := takenApart_classify filler_not_mem_none defaultStart (String.ofList (literal ++ ' ' :: modifiers))
  have hmark : findMark? (Segments.ofDelimiter none) (mask (literal ++ ' ' :: modifiers)) = some (.ownList, 0) := by
    rw [← hliteral]
    exact findMark?_sign none .ownList _
  rw [String.toList_ofList, htrim] at htaken
  rw [← bodyEnd_iff_endsInMask literal modifiers]
  constructor
  · intro heq
    -- The remainder is the blank and the modifiers, so the body is the literal.
    rw [heq] at htaken
    obtain ⟨front, body, rest, htext, hrest, hstart⟩ := htaken
    rw [hmark] at hstart
    obtain ⟨hfront, hend, -⟩ := hstart
    obtain rfl := eq_nil_of_byteLength_eq_zero hfront.symm
    obtain rfl : ' ' :: modifiers = rest := String.ofList_injective hrest
    rw [List.nil_append, List.append_cancel_right_eq] at htext
    rw [hend, htext, List.nil_append]
  · intro hend
    -- A line is taken apart in one way only.
    refine htaken.unique ⟨[], literal, ' ' :: modifiers, rfl, rfl, ?_⟩
    rw [hmark]
    refine ⟨rfl, hend, ?_⟩
    rw [← hliteral]
    have hinner : '\n' ∉ items' := fun hmem => hline (List.mem_append_left _ hmem)
    exact (readOwnList_bracketed none hinner).symm

/-! ### Lists of plain items -/

/-- A text all of which is covered in the mask, with what is open in front of it and behind it. -/
structure Hides (literals : OpenLiterals) (text : List Char) (literals' : OpenLiterals) : Prop where
  openAfter_eq : openAfter literals text = literals'
  covered : ∀ c ∈ maskFrom literals text, c = filler

namespace Hides

variable {literals literals' literals'' : OpenLiterals} {text text' : List Char}

theorem append (h : Hides literals text literals') (h' : Hides literals' text' literals'') :
    Hides literals (text ++ text') literals'' := by
  obtain ⟨rfl, hcovered⟩ := h
  refine ⟨by rw [openAfter_append, h'.openAfter_eq], fun c hc => ?_⟩
  rw [maskFrom_append] at hc
  exact (List.mem_append.1 hc).elim (hcovered c) (h'.covered c)

theorem one {c : Char} (hopen : literals.closers ≠ []) (hopen' : (literals.after c).closers ≠ []) :
    Hides literals [c] (literals.after c) := by
  refine ⟨rfl, fun d hd => ?_⟩
  have hmask : maskFrom literals [c] = List.replicate c.utf8Size filler := by
    simp [maskFrom, OpenLiterals.shows, hopen, hopen']
  rw [hmask] at hd
  exact List.eq_of_mem_replicate hd

/-- Characters that neither open nor close anything do not show inside of a literal. -/
theorem of_forall (hopen : literals.closers ≠ []) (htext : ∀ c ∈ text, literals.after c = literals) :
    Hides literals text literals := by
  induction text with
  | nil => exact ⟨rfl, fun c hc => by cases hc⟩
  | cons c text ih =>
    obtain ⟨hc, hrest⟩ := List.forall_mem_cons.1 htext
    have hone := one hopen (hc.symm ▸ hopen)
    rw [hc] at hone
    exact hone.append (ih hrest)

end Hides

/-- What is open inside of a list. -/
def insideList : OpenLiterals :=
  { closers := [']'] }

/-- An item without quotes and brackets, or in quotes without a backslash. -/
inductive PlainItem : List Char → Prop
  | bare {text : List Char} (htext : ∀ c ∈ text, isBare c ∧ c ∉ openers) : PlainItem text
  | quoted {quote : Char} {before text behind : List Char} (hquote : quote ∈ ['"', '\''])
      (hbefore : ∀ c ∈ before, isBlank c) (htext : ∀ c ∈ text, c ≠ quote ∧ c ≠ '\\')
      (hbehind : ∀ c ∈ behind, isBlank c) : PlainItem (before ++ (quote :: (text ++ [quote])) ++ behind)

/-- Plain items with separators between them, and the closing bracket. -/
inductive PlainItems : List Char → Prop
  | last {item : List Char} (h : PlainItem item) : PlainItems (item ++ [']'])
  | more {item rest : List Char} {separator : Char} (h : PlainItem item) (hseparator : isSeparator separator)
      (hrest : PlainItems rest) : PlainItems (item ++ separator :: rest)

theorem hides_insideList {text : List Char} (htext : ∀ c ∈ text, c ≠ ']' ∧ c ∉ openers) :
    Hides insideList text insideList := by
  refine .of_forall (by decide) fun c hc => ?_
  obtain ⟨hclosing, hopening⟩ := htext c hc
  have hquote : isQuote ']' = false := by decide
  simp [insideList, OpenLiterals.after, hquote, hclosing, closer?_eq_none hopening]

theorem PlainItem.hides {item : List Char} (h : PlainItem item) : Hides insideList item insideList := by
  have hblanks {text : List Char} (htext : ∀ c ∈ text, isBlank c) : Hides insideList text insideList := by
    refine hides_insideList fun c hc => ⟨?_, fun hmem => ?_⟩
    · rintro rfl
      exact absurd (htext _ hc) (by decide)
    · have hall : ∀ c ∈ openers, ¬ isBlank c := forall_of_all (by decide)
      exact hall c hmem (htext c hc)
  cases h with
  | bare htext =>
    refine hides_insideList fun c hc => ⟨?_, (htext c hc).2⟩
    rintro rfl
    exact absurd (htext _ hc).1 (by decide)
  | @quoted quote before text behind hquote hbefore htext hbehind =>
    have hquotes : ∀ quote ∈ ['"', '\''], isQuote quote ∧ quote ≠ '\\' ∧
        insideList.after quote = { closers := [quote, ']'] } := forall_of_all (by decide)
    obtain ⟨hown, hbackslash, hopens⟩ := hquotes quote hquote
    -- The quote opens a string, the text stays in it, and the same quote closes it.
    have hopening : Hides insideList [quote] { closers := [quote, ']'] } := by
      have hone := @Hides.one insideList quote (by decide) (by simp [hopens])
      rwa [hopens] at hone
    have hinside : Hides { closers := [quote, ']'] } text { closers := [quote, ']'] } := by
      refine .of_forall (by simp) fun c hc => ?_
      obtain ⟨hne, hnot⟩ := htext c hc
      simp [OpenLiterals.after, hown, hne, hnot]
    have hclosing : Hides { closers := [quote, ']'] } [quote] insideList := by
      have hafter : OpenLiterals.after { closers := [quote, ']'] } quote = insideList := by
        simp [OpenLiterals.after, insideList, hbackslash]
      have hone := @Hides.one { closers := [quote, ']'] } quote (by simp) (by simp [hafter, insideList])
      rwa [hafter] at hone
    exact ((hblanks hbefore).append (hopening.append (hinside.append hclosing))).append (hblanks hbehind)

/-- Of plain items only the closing bracket shows, and nothing is open behind it. -/
theorem PlainItems.closed {inner : List Char} (h : PlainItems inner) :
    openAfter insideList inner = .none ∧ ∀ c ∈ maskFrom insideList inner, c = filler ∨ c = ']' := by
  induction h with
  | last hitem =>
    obtain ⟨hopen, hcovered⟩ := hitem.hides
    rw [openAfter_append, maskFrom_append, hopen]
    refine ⟨by decide, fun c hc => ?_⟩
    rcases List.mem_append.1 hc with hown | hclosing
    · exact .inl (hcovered c hown)
    · have hmask : maskFrom insideList [']'] = [']'] := by decide
      rw [hmask] at hclosing
      exact .inr (List.mem_singleton.1 hclosing)
  | @more item rest separator hitem hseparator _ ih =>
    -- Inside of the brackets a separator is hidden as the items are.
    have hhidden : Hides insideList [separator] insideList := by
      refine hides_insideList fun c hc => ?_
      obtain rfl := List.mem_singleton.1 hc
      rcases Bool.or_eq_true_iff.1 hseparator with hcomma | hsemicolon
      · rw [of_decide_eq_true hcomma]
        decide
      · rw [of_decide_eq_true hsemicolon]
        decide
    obtain ⟨hopen, hcovered⟩ := hitem.hides.append hhidden
    rw [List.append_cons, openAfter_append, maskFrom_append, hopen]
    refine ⟨ih.1, fun c hc => ?_⟩
    rcases List.mem_append.1 hc with hown | hbehind
    · exact .inl (hcovered c hown)
    · exact ih.2 c hbehind

/-- The mask shows where a list of plain items ends. -/
theorem PlainItems.endsInMask {inner : List Char} (h : PlainItems inner) : EndsInMask ('[' :: inner) := by
  obtain ⟨hclosed, hshown⟩ := h.closed
  have hmask : mask ('[' :: inner) = '[' :: maskFrom insideList inner := rfl
  refine ⟨hclosed, ?_⟩
  rw [hmask]
  refine isToken_of_shown (fun c hc => ?_) (.inl rfl)
  have hall : ∀ c ∈ ['[', ']', filler], c ∉ keyMarks ∧ isBlank c = false := forall_of_all (by decide)
  refine hall c ?_
  rcases List.mem_cons.1 hc with rfl | hinner
  · exact List.mem_cons_self
  · rcases hshown c hinner with rfl | rfl <;> decide

/-- Masking and the grammar of lists agree on the end of a list exactly if the mask shows it, and they do so for plain
items. -/
theorem list_ends_with_literal {inner modifiers : List Char} {items : List (List Char)}
    (hitems : readItems? inner = some items) (hline : '\n' ∉ inner)
    (hmodifiers : ∃ c ∈ modifiers.getLast?, isBlank c = false) (defaultStart : String) :
    (classify (Segments.ofDelimiter none) defaultStart (String.ofList ('[' :: inner ++ ' ' :: modifiers)) =
          { start := .ownList (readListLiteral (String.ofList ('[' :: inner))) 1,
            remainder := String.ofList (' ' :: modifiers) } ↔
        EndsInMask ('[' :: inner)) ∧
      (PlainItems inner → EndsInMask ('[' :: inner)) :=
  ⟨classify_list_iff hitems hline hmodifiers defaultStart, PlainItems.endsInMask⟩

theorem list_ends_with_two_items :
    (readItems? "a, 'b]']".toList = some [['a'], ['b', ']']] ∧ '\n' ∉ "a, 'b]']".toList ∧
        ∃ c ∈ "*2".toList.getLast?, isBlank c = false) ∧
      classify (Segments.ofDelimiter none) "1" "[a, 'b]'] *2" =
        { start := .ownList ["a", "b]"] 1, remainder := " *2" } := by
  have hitems : readItems? "a, 'b]']".toList = some [['a'], ['b', ']']] := by cbv
  have hline : '\n' ∉ "a, 'b]']".toList := by decide
  have hmodifiers : ∃ c ∈ "*2".toList.getLast?, isBlank c = false := ⟨'2', rfl, by decide⟩
  obtain ⟨hiff, hplain⟩ := list_ends_with_literal hitems hline hmodifiers "1"
  have hfirst : PlainItem ['a'] := .bare (forall_of_all (by decide))
  have hsecond : PlainItem ([' '] ++ ('\'' :: (['b', ']'] ++ ['\''])) ++ []) :=
    .quoted (by decide) (forall_of_all (by decide)) (forall_of_all (by decide)) (forall_of_all (by decide))
  have hread : readListLiteral "[a, 'b]']" = ["a", "b]"] := by cbv
  refine ⟨⟨hitems, hline, hmodifiers⟩, ?_⟩
  rw [← hread]
  exact hiff.2 (hplain (.more hfirst (by decide) (.last hsecond)))

/-- An apostrophe in an item hides the end of the list. -/
theorem apostrophe_hides_list_end :
    (readItems? "it's]".toList = some ["it's".toList] ∧ '\n' ∉ "it's]".toList ∧
        ∃ c ∈ "5".toList.getLast?, isBlank c = false) ∧
      classify (Segments.ofDelimiter none) "1" "[it's] 5" ≠
        { start := .ownList (readListLiteral "[it's]") 1, remainder := " 5" } := by
  have hitems : readItems? "it's]".toList = some ["it's".toList] := by cbv
  have hline : '\n' ∉ "it's]".toList := by decide
  have hmodifiers : ∃ c ∈ "5".toList.getLast?, isBlank c = false := ⟨'5', rfl, by decide⟩
  refine ⟨⟨hitems, hline, hmodifiers⟩, fun heq => ?_⟩
  have hopen := ((classify_list_iff hitems hline hmodifiers "1").1 heq).closed
  exact absurd hopen (by decide)

end SequenceNotation.Notation
