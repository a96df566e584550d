import SequenceNotation.Proofs.Notation.EnclosingQuotes
import SequenceNotation.Proofs.Notation.ListEnds
import SequenceNotation.Proofs.Notation.RemainderMask

/-!
# What a mask covers

Literals are said here without the scanner: what may stand between quotes, and between brackets, where literals may
stand in turn.  A mask shows all characters outside of literals, and of a literal its opening and closing character;
of one that is not closed it shows only the former.  What it covers opens and closes nothing, so that a mask is its own
mask.
-/

namespace SequenceNotation.Notation

open SequenceNotation.Text

/-! ### Literals -/

/-- The text may stand in front of the character that closes a literal.  Inside brackets every literal is closed on its
own, and a closing character that is not expected closes nothing. -/
inductive Inside : Char → List Char → Prop
  | quoted {quote : Char} {body : List Char} (hquote : isQuote quote) (h : QuotedBody quote body) : Inside quote body
  | nil {closing : Char} (hbracket : ¬isQuote closing) : Inside closing []
  | plain {closing c : Char} {text : List Char} (hbracket : ¬isQuote closing) (hc : c ≠ closing)
      (hplain : closer? c = none) (h : Inside closing text) : Inside closing (c :: text)
  | literal {closing opening inner : Char} {body text : List Char} (hbracket : ¬isQuote closing)
      (hopening : opening ≠ closing) (hinner : closer? opening = some inner) (hbody : Inside inner body)
      (h : Inside closing text) : Inside closing (opening :: (body ++ inner :: text))

/-- The second text shows of the first one what stands outside of literals, and the characters that open and close
literals; all other bytes are fillers.  A literal that is never closed goes up to the end. -/
inductive IsMask : List Char → List Char → Prop
  | nil : IsMask [] []
  | plain {c : Char} {text masked : List Char} (hc : closer? c = none) (h : IsMask text masked) :
      IsMask (c :: text) (c :: masked)
  | literal {opening closing : Char} {inside text masked : List Char} (hclosing : closer? opening = some closing)
      (hinside : Inside closing inside) (h : IsMask text masked) :
      IsMask (opening :: (inside ++ closing :: text))
        (opening :: (List.replicate (byteLength inside) filler ++ closing :: masked))
  | unclosed {opening closing : Char} {text : List Char} (hclosing : closer? opening = some closing)
      (hopen : ∀ inside rest, text = inside ++ closing :: rest → ¬Inside closing inside) :
      IsMask (opening :: text) (opening :: List.replicate (byteLength text) filler)

/-! ### What is open inside of literals -/

section Scanner

variable {outer : List Char}

theorem after_escaped_open {quote : Char} (hquote : isQuote quote) (c : Char) :
    OpenLiterals.after ⟨quote :: outer, true⟩ c = ⟨quote :: outer, false⟩ := by
  simp [OpenLiterals.after, hquote]

theorem after_open_quote (outer : List Char) {quote : Char} (hquote : isQuote quote) (c : Char) :
    OpenLiterals.after ⟨quote :: outer, false⟩ c =
      if c = '\\' then ⟨quote :: outer, true⟩ else if c = quote then ⟨outer, false⟩ else ⟨quote :: outer, false⟩ := by
  simp [OpenLiterals.after, hquote]

theorem after_open_bracket (outer : List Char) {closing : Char} (hbracket : ¬isQuote closing) (c : Char) :
    OpenLiterals.after ⟨closing :: outer, false⟩ c =
      if c = closing then ⟨outer, false⟩ else ⟨(closer? c).toList ++ closing :: outer, false⟩ := by
  simp [OpenLiterals.after, hbracket]

/-- The character that is expected closes the innermost literal. -/
theorem after_closing (outer : List Char) {closing : Char} (hclosing : closing ≠ '\\') :
    OpenLiterals.after ⟨closing :: outer, false⟩ closing = ⟨outer, false⟩ := by
  simp [OpenLiterals.after, hclosing]

theorem ne_backslash_of_closer? {opening closing : Char} (h : closer? opening = some closing) : closing ≠ '\\' := by
  rintro rfl
  exact absurd (mem_closingChars_of_closer? h) (by decide)

/-- A character in front of which and behind which something is open is covered. -/
theorem hides_cons {closing closing' c : Char} {outer' text : List Char} {escaped escaped' : Bool}
    {literals : OpenLiterals}
    (hafter : OpenLiterals.after ⟨closing :: outer, escaped⟩ c = ⟨closing' :: outer', escaped'⟩)
    (h : Hides ⟨closing' :: outer', escaped'⟩ text literals) :
    Hides ⟨closing :: outer, escaped⟩ (c :: text) literals := by
  have hone := @Hides.one ⟨closing :: outer, escaped⟩ c (List.cons_ne_nil _ _)
    (by rw [hafter]; exact List.cons_ne_nil _ _)
  rw [hafter] at hone
  exact hone.append h

theorem hides_nil (literals : OpenLiterals) : Hides literals [] literals :=
  ⟨rfl, by rintro c ⟨⟩⟩

theorem hides_quotedBody {quote : Char} (hquote : isQuote quote) {body : List Char} (h : QuotedBody quote body) :
    Hides ⟨quote :: outer, false⟩ body ⟨quote :: outer, false⟩ := by
  induction h with
  | nil => exact hides_nil _
  | @plain c body hc hback _ ih =>
    have hafter := after_open_quote outer hquote c
    rw [if_neg hback, if_neg hc] at hafter
    exact hides_cons hafter ih
  | escape c _ ih =>
    have hafter := after_open_quote outer hquote '\\'
    rw [if_pos rfl] at hafter
    exact hides_cons hafter (hides_cons (after_escaped_open hquote c) ih)

/-- What stands inside of a literal is covered, and leaves open what was open. -/
theorem Inside.hides {closing : Char} {inside : List Char} (h : Inside closing inside) :
    Hides ⟨closing :: outer, false⟩ inside ⟨closing :: outer, false⟩ := by
  induction h generalizing outer with
  | quoted hquote h => exact hides_quotedBody hquote h
  | nil => exact hides_nil _
  | @plain closing c text hbracket hc hplain _ ih =>
    have hafter := after_open_bracket outer hbracket c
    rw [if_neg hc, hplain] at hafter
    exact hides_cons hafter ih
  | @literal closing opening inner body text hbracket hopening hinner _ _ ihbody ih =>
    have hafter := after_open_bracket outer hbracket opening
    rw [if_neg hopening, hinner] at hafter
    have hclosed := after_closing (closing :: outer) (ne_backslash_of_closer? hinner)
    exact hides_cons hafter (ihbody.append (hides_cons hclosed ih))

/-! ### Reading literals -/

/-- From an open quote on the text closes it, or all of it is covered. -/
theorem quotedBody_or_hides {quote : Char} (hquote : isQuote quote) (text : List Char) :
    (∃ body rest, text = body ++ quote :: rest ∧ QuotedBody quote body) ∨
      ∃ literals, Hides ⟨quote :: outer, false⟩ text literals := by
  match text with
  | [] => exact .inr ⟨_, hides_nil _⟩
  | c :: text =>
    have hafter := after_open_quote outer hquote c
    by_cases hback : c = '\\'
    · -- the backslash takes the next character along
      rw [if_pos hback] at hafter
      match text with
      | [] => exact .inr ⟨_, hides_cons hafter (hides_nil _)⟩
      | d :: text =>
        obtain ⟨body, rest, rfl, hbody⟩ | ⟨literals, hcovered⟩ := quotedBody_or_hides hquote text
        · exact .inl ⟨c :: d :: body, rest, rfl, hback ▸ .escape d hbody⟩
        · exact .inr ⟨literals, hides_cons hafter (hides_cons (after_escaped_open hquote d) hcovered)⟩
    · rw [if_neg hback] at hafter
      by_cases hc : c = quote
      · exact .inl ⟨[], text, by rw [hc]; rfl, .nil⟩
      · rw [if_neg hc] at hafter
        obtain ⟨body, rest, rfl, hbody⟩ | ⟨literals, hcovered⟩ := quotedBody_or_hides hquote text
        · exact .inl ⟨c :: body, rest, rfl, .plain hc hback hbody⟩
        · exact .inr ⟨literals, hides_cons hafter hcovered⟩
termination_by text.length

/-- From an open literal on the text closes it, or all of it is covered. -/
theorem inside_or_hides (closing : Char) (outer text : List Char) :
    (∃ inside rest, text = inside ++ closing :: rest ∧ Inside closing inside) ∨
      ∃ literals, Hides ⟨closing :: outer, false⟩ text literals := by
  by_cases hbracket : isQuote closing
  · obtain ⟨body, rest, htext, hbody⟩ | hcovered := @quotedBody_or_hides outer _ hbracket text
    · exact .inl ⟨body, rest, htext, .quoted hbracket hbody⟩
    · exact .inr hcovered
  match htext : text with
  | [] => exact .inr ⟨_, hides_nil _⟩
  | c :: tail =>
    by_cases hc : c = closing
    · exact .inl ⟨[], tail, by rw [hc]; rfl, .nil hbracket⟩
    have hafter := after_open_bracket outer hbracket c
    rw [if_neg hc] at hafter
    cases hinner : closer? c with
    | none =>
      rw [hinner] at hafter
      obtain ⟨inside, rest, rfl, hinside⟩ | ⟨literals, hcovered⟩ := inside_or_hides closing outer tail
      · exact .inl ⟨c :: inside, rest, rfl, .plain hbracket hc hinner hinside⟩
      · exact .inr ⟨literals, hides_cons hafter hcovered⟩
    | some inner =>
      -- the inner literal first, and what follows it if that is closed
      rw [hinner] at hafter
      obtain ⟨body, behind, htail, hbody⟩ | ⟨literals, hcovered⟩ := inside_or_hides inner (closing :: outer) tail
      · have hclosed := after_closing (closing :: outer) (ne_backslash_of_closer? hinner)
        obtain ⟨inside, rest, hbehind, hinside⟩ | ⟨literals, hcovered⟩ := inside_or_hides closing outer behind
        · refine .inl ⟨c :: (body ++ inner :: inside), rest, ?_, .literal hbracket hc hinner hbody hinside⟩
          rw [htail, hbehind, List.cons_append, List.append_assoc, List.cons_append]
        · refine .inr ⟨literals, htail ▸ hides_cons hafter (hbody.hides.append (hides_cons hclosed hcovered))⟩
      · exact .inr ⟨literals, hides_cons hafter hcovered⟩
termination_by text.length
decreasing_by all_goals simp_all +arith

end Scanner

/-! ### Masks -/

theorem Hides.maskFrom_eq {literals literals' : OpenLiterals} {text : List Char} (h : Hides literals text literals') :
    maskFrom literals text = List.replicate (byteLength text) filler := by
  have hall := List.eq_replicate_of_mem h.covered
  have hlength := byteLength_maskFrom literals text
  rw [hall, byteLength_replicate_filler] at hlength
  rw [hall, hlength]

theorem after_none_opening {opening closing : Char} (h : closer? opening = some closing) :
    OpenLiterals.none.after opening = ⟨[closing], false⟩ := by
  simp [OpenLiterals.after, OpenLiterals.none, h]

theorem mask_cons (c : Char) (text : List Char) : mask (c :: text) = c :: maskFrom (OpenLiterals.none.after c) text :=
  rfl

theorem mask_plain_cons {c : Char} (hc : closer? c = none) (text : List Char) : mask (c :: text) = c :: mask text := by
  rw [mask_cons, after_none hc]
  rfl

/-- Of a literal that is closed the first and the last character show. -/
theorem mask_literal {opening closing : Char} (hclosing : closer? opening = some closing) {inside : List Char}
    (hinside : Inside closing inside) (text : List Char) :
    mask (opening :: (inside ++ closing :: text)) =
      opening :: (List.replicate (byteLength inside) filler ++ closing :: mask text) := by
  have hcovered := @Inside.hides [] _ _ hinside
  have hclosed := after_closing [] (ne_backslash_of_closer? hclosing)
  have hshown : maskFrom ⟨[closing], false⟩ (closing :: text) = closing :: mask text := by
    rw [maskFrom_cons, maskedChar, OpenLiterals.shows, hclosed]
    rfl
  rw [mask_cons, after_none_opening hclosing, maskFrom_append, hcovered.openAfter_eq, hcovered.maskFrom_eq, hshown]

/-- Of a literal that is never closed the first character shows. -/
theorem mask_unclosed {opening closing : Char} (hclosing : closer? opening = some closing) {text : List Char}
    (hopen : ∀ inside rest, text = inside ++ closing :: rest → ¬Inside closing inside) :
    mask (opening :: text) = opening :: List.replicate (byteLength text) filler := by
  obtain ⟨inside, rest, htext, hinside⟩ | ⟨literals, hcovered⟩ := inside_or_hides closing [] text
  · exact absurd hinside (hopen inside rest htext)
  · rw [mask_cons, after_none_opening hclosing, hcovered.maskFrom_eq]

theorem isMask_mask (text : List Char) : IsMask text (mask text) := by
  match htext : text with
  | [] => exact .nil
  | c :: tail =>
    cases hclosing : closer? c with
    | none =>
      rw [mask_plain_cons hclosing]
      exact .plain hclosing (isMask_mask tail)
    | some closing =>
      by_cases hclosed : ∃ inside rest, tail = inside ++ closing :: rest ∧ Inside closing inside
      · obtain ⟨inside, rest, htail, hinside⟩ := hclosed
        rw [htail, mask_literal hclosing hinside]
        exact .literal hclosing hinside (isMask_mask rest)
      · have hopen : ∀ inside rest, tail = inside ++ closing :: rest → ¬Inside closing inside :=
          fun inside rest htail hinside => hclosed ⟨inside, rest, htail, hinside⟩
        rw [mask_unclosed hclosing hopen]
        exact .unclosed hclosing hopen
termination_by text.length
decreasing_by all_goals simp_all +arith

theorem IsMask.eq_mask {text masked : List Char} (h : IsMask text masked) : masked = mask text := by
  induction h with
  | nil => rfl
  | plain hc _ ih => rw [mask_plain_cons hc, ih]
  | literal hclosing hinside _ ih => rw [mask_literal hclosing hinside, ih]
  | unclosed hclosing hopen => rw [mask_unclosed hclosing hopen]

/-! ### Masks of masks -/

theorem ne_filler_of_closer? {opening closing : Char} (h : closer? opening = some closing) : closing ≠ filler := by
  rintro rfl
  exact absurd (mem_closingChars_of_closer? h) (by decide)

theorem inside_fillers {opening closing : Char} (hclosing : closer? opening = some closing) (n : Nat) :
    Inside closing (List.replicate n filler) := by
  have hne := (ne_filler_of_closer? hclosing).symm
  by_cases hquote : isQuote closing
  · refine .quoted hquote ?_
    induction n with
    | zero => exact .nil
    | succ n ih => exact .plain hne (by decide) ih
  · induction n with
    | zero => exact .nil hquote
    | succ n ih => exact .plain hquote hne (by decide) ih

/-- What a mask covers neither opens nor closes a literal. -/
theorem IsMask.self {text masked : List Char} (h : IsMask text masked) : IsMask masked masked := by
  induction h with
  | nil => exact .nil
  | plain hc _ ih => exact .plain hc ih
  | @literal _ _ inside _ _ hclosing _ _ ih =>
    have hmask := IsMask.literal hclosing (inside_fillers hclosing (byteLength inside)) ih
    rwa [byteLength_replicate_filler] at hmask
  | @unclosed _ closing text hclosing _ =>
    have hopen (inside rest : List Char)
        (hfillers : List.replicate (byteLength text) filler = inside ++ closing :: rest) : ¬Inside closing inside := by
      have hmem : closing ∈ List.replicate (byteLength text) filler := by
        rw [hfillers]
        exact List.mem_append_right _ List.mem_cons_self
      exact absurd (List.eq_of_mem_replicate hmem) (ne_filler_of_closer? hclosing)
    have hmask := IsMask.unclosed hclosing hopen
    rwa [byteLength_replicate_filler] at hmask

/-! ### Bytes -/

/-- The bytes of a text. -/
def utf8Bytes (text : List Char) : List UInt8 :=
  text.flatMap String.utf8EncodeChar

theorem utf8Bytes_append (front back : List Char) : utf8Bytes (front ++ back) = utf8Bytes front ++ utf8Bytes back :=
  List.flatMap_append

theorem utf8Bytes_fillers (n : Nat) : utf8Bytes (List.replicate n filler) = List.replicate n 1 := by
  induction n with
  | zero => rfl
  | succ n ih => exact congrArg (1 :: ·) ih

/-- The byte is left as it is or covered. -/
abbrev KeptOrCovered (byte masked : UInt8) : Prop :=
  masked = byte ∨ masked = 1

theorem forall_replicate_one {bytes : List UInt8} {n : Nat} (h : bytes.length = n) :
    List.Forall₂ KeptOrCovered bytes (List.replicate n 1) := by
  subst h
  induction bytes with
  | nil => exact .nil
  | cons byte bytes ih => exact .cons (.inr rfl) ih

theorem utf8Bytes_maskFrom (literals : OpenLiterals) (text : List Char) :
    List.Forall₂ KeptOrCovered (utf8Bytes text) (utf8Bytes (maskFrom literals text)) := by
  induction text generalizing literals with
  | nil => exact .nil
  | cons c text ih =>
    rw [maskFrom_cons, utf8Bytes_append]
    refine List.rel_append ?_ (ih (literals.after c))
    unfold maskedChar
    split
    · rw [utf8Bytes, List.flatMap_singleton]
      exact List.forall₂_same.2 fun _ _ => .inl rfl
    · rw [utf8Bytes_fillers]
      exact forall_replicate_one (String.length_utf8EncodeChar c)

/-- A mask has the bytes of its text or fillers in their place.  It is the text with all covered but what stands outside
of literals and the characters that open and close them, and there is no other text like this.  A second mask covers
nothing more. -/
theorem mask_covers_literals (text : List Char) :
    byteLength (mask text) = byteLength text ∧
      List.Forall₂ KeptOrCovered (utf8Bytes text) (utf8Bytes (mask text)) ∧
      (∀ masked, IsMask text masked ↔ masked = mask text) ∧
      mask (mask text) = mask text := by
  have hmask := isMask_mask text
  refine ⟨byteLength_maskFrom _ _, utf8Bytes_maskFrom _ _, fun masked => ⟨IsMask.eq_mask, ?_⟩, hmask.self.eq_mask.symm⟩
  rintro rfl
  exact hmask

/-- A bracket that is not expected closes nothing, and the last literal is not closed. -/
example : mask "[a(b])c] 'é".toList =
    '[' :: (List.replicate 6 filler ++ "] '".toList ++ List.replicate 2 filler) := by
  decide

end SequenceNotation.Notation
