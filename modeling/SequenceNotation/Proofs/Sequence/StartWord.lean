import SequenceNotation.Proofs.Alphabet.MachineSums
import SequenceNotation.Proofs.Sequence.Integers
import SequenceNotation.Proofs.Text.Case

/-!
# Sequences of words begin with their start

The start word is taken for the word of its letters over the alphabet, in either case, and the case of its characters is
given back to these letters.  So in front of the first step each character that is a letter comes back, and each one
that stands for a letter in the other case.  Over one letter there are no words beyond the greatest length.
-/

namespace SequenceNotation

open SequenceNotation.Text SequenceNotation.Number

/-! ### Characters that come back -/

/-- A character is a letter, or the only one that a letter becomes in its case. -/
inductive Alphabet.ComesBack (alphabet : Alphabet) (c : Char) : Prop where
  | listed (h : c ∈ alphabet.letters)
  | upper {letter : Char} (hupper : isUpper c) (hletter : letter ∈ alphabet.letters)
      (hlower : (lowerChar c).head? = some letter) (hback : upperChar letter = [c])
  | lower {letter : Char} (hlower : isLower c) (hletter : letter ∈ alphabet.letters)
      (hupper : (upperChar c).head? = some letter) (hback : lowerChar letter = [c])

/-- In its own case a character stays as it is. -/
theorem inCaseOf_self (c : Char) : inCaseOf c c = [c] := by
  unfold inCaseOf
  split
  · exact upperChar_of_isUpper ‹_›
  · split
    · exact lowerChar_of_isLower ‹_›
    · rfl

theorem inCaseOf_of_isUpper {model : Char} (h : isUpper model) (c : Char) : inCaseOf model c = upperChar c :=
  if_pos h

theorem inCaseOf_of_isLower {model : Char} (h : isLower model) (c : Char) : inCaseOf model c = lowerChar c := by
  have hupper : ¬isUpper model = true := fun hupper => by simp [isLower_of_isUpper hupper] at h
  rw [inCaseOf, if_neg hupper, if_pos h]

namespace Alphabet

variable {alphabet : Alphabet}

theorem position?_of_not_mem {c : Char} (h : c ∉ alphabet.letters) :
    alphabet.position? c = ((lowerChar c).head?.bind alphabet.letters.idxOf? <|>
      (upperChar c).head?.bind alphabet.letters.idxOf?) := by
  have hlisted : alphabet.letters.idxOf? c = none := List.idxOf?_eq_none_iff.2 h
  rw [position?]
  simp [hlisted]

/-- A character that comes back counts as a letter that becomes the character in its case. -/
theorem ComesBack.exists_letter {c : Char} (h : alphabet.ComesBack c) :
    ∃ letter ∈ alphabet.letters, alphabet.position? c = alphabet.position? letter ∧ inCaseOf c letter = [c] := by
  by_cases hlisted : c ∈ alphabet.letters
  · exact ⟨c, hlisted, rfl, inCaseOf_self c⟩
  cases h with
  | listed h => exact absurd h hlisted
  | upper hupper hletter hlower hback =>
    refine ⟨_, hletter, ?_, (inCaseOf_of_isUpper hupper _).trans hback⟩
    rw [position?_of_not_mem hlisted, position?_of_mem hletter, hlower]
    simp [idxOf?_of_mem hletter]
  | lower hlower hletter hupper hback =>
    refine ⟨_, hletter, ?_, (inCaseOf_of_isLower hlower _).trans hback⟩
    rw [position?_of_not_mem hlisted, position?_of_mem hletter, hupper, lowerChar_of_isLower hlower]
    simp [idxOf?_of_mem hletter, List.idxOf?_eq_none_iff.2 hlisted]

/-- A word whose characters come back has the digits of a word of letters. -/
theorem exists_consists {word : String} (h : ∀ c ∈ word.toList, alphabet.ComesBack c) :
    ∃ spelled, alphabet.Consists spelled ∧ alphabet.digits? word = alphabet.digits? spelled ∧
      List.Forall₂ (fun c letter => inCaseOf c letter = [c]) word.toList spelled.toList := by
  unfold digits?
  generalize word.toList = characters at h ⊢
  have hletters : ∃ letters : List Char, (∀ letter ∈ letters, letter ∈ alphabet.letters) ∧
      (characters.mapM fun c => (alphabet.position? c).map (· + 1)) =
        letters.mapM (fun c => (alphabet.position? c).map (· + 1)) ∧
      List.Forall₂ (fun c letter => inCaseOf c letter = [c]) characters letters := by
    induction characters with
    | nil => exact ⟨[], by simp, rfl, .nil⟩
    | cons c rest ih =>
      obtain ⟨hc, hrest⟩ := List.forall_mem_cons.1 h
      obtain ⟨letter, hletter, hplace, hback⟩ := hc.exists_letter
      obtain ⟨letters, hmem, hdigits, hletters⟩ := ih hrest
      refine ⟨letter :: letters, List.forall_mem_cons.2 ⟨hletter, hmem⟩, ?_, .cons hback hletters⟩
      rw [List.mapM_cons, List.mapM_cons, hplace, hdigits]
  obtain ⟨letters, hmem, hdigits, hletters⟩ := hletters
  exact ⟨String.ofList letters, by simpa [Consists] using hmem, by simpa using hdigits, by simpa using hletters⟩

theorem spells_of_comesBack {word : String} (h : ∀ c ∈ word.toList, alphabet.ComesBack c) : alphabet.spells word := by
  refine List.all_eq_true.2 fun c hc => ?_
  obtain ⟨letter, hletter, hplace, -⟩ := (h c hc).exists_letter
  rw [hplace, position?_of_mem hletter]
  rfl

/-- Without a distance a word stays in its place, but a word over one letter must not be too long. -/
theorem shift?_zero {digits : List Nat} (hdigits : AreDigits alphabet.size digits) (hlength : digits.length < 2 ^ 64) :
    alphabet.shift? digits 0 = if alphabet.size = 1 ∧ maxUnaryLength < digits.length then none else some digits := by
  have hpos : 0 < alphabet.size := List.length_pos_iff.2 alphabet.nonempty
  by_cases hone : alphabet.size = 1
  · rw [hone] at hdigits
    have hones : List.replicate digits.length 1 = digits :=
      (List.eq_replicate_iff.2 ⟨rfl, fun digit hdigit => by have := hdigits digit hdigit; omega⟩).symm
    have hsum : ((digits.length : Int) + 0).bmod (Nat.pow 2 128) = digits.length := by
      rw [show Nat.pow 2 128 = 2 ^ 128 from rfl, Int.add_zero]
      exact Int.bmod_eq_of_le (by omega) (by omega)
    rw [shift?, if_pos hone, hsum]
    dsimp only
    by_cases hlong : maxUnaryLength < digits.length
    · rw [if_neg (by omega), if_pos ⟨hone, hlong⟩]
    · rw [if_pos (by omega), if_neg (fun h => hlong h.2), Int.toNat_natCast, hones]
  · rw [shift?_eq (by omega) hdigits, if_pos (by omega), if_neg (fun h => hone h.1), Int.add_zero, Int.toNat_natCast,
      numberDigits_digitsNumber hdigits]

end Alphabet

/-! ### The case of a word -/

theorem preserveCase_nil (template : List Char) : preserveCase [] template = [] := by
  cases template <;> rfl

/-- Letters of a word that become the characters of a template in their case become the template. -/
theorem preserveCase_of_forall₂ {template word : List Char}
    (h : List.Forall₂ (fun c letter => inCaseOf c letter = [c]) template word) : preserveCase word template = template := by
  have hcopied (first : Char) {template word : List Char}
      (h : List.Forall₂ (fun c letter => inCaseOf c letter = [c]) template word) :
      copyCase first word template = template.map fun c => [c] := by
    induction h with
    | nil => rfl
    | cons hc _ ih => rw [copyCase, hc, ih, List.map_cons]
  cases template with
  | nil =>
    cases h
    rfl
  | cons first rest =>
    rw [preserveCase, hcopied first (List.rel_reverse h), ← List.map_reverse, List.reverse_reverse,
      ← List.flatMap_def, List.flatMap_singleton']

namespace Sequence

open SequenceNotation.Notation SequenceNotation.Pattern

namespace WordSequence

variable {sequence : WordSequence}

/-- Where no step has been made the word is the one that has the digits of the start, unless it is too long. -/
theorem wordAt_of_fold {spelled : String} {index : Nat} (hspelled : sequence.alphabet.Consists spelled)
    (hdigits : sequence.alphabet.digits? sequence.word = sequence.alphabet.digits? spelled)
    (hlength : spelled.length < 2 ^ 64) (hfold : sequence.folding.fold index = 0) :
    sequence.wordAt index =
      if sequence.alphabet.size = 1 ∧ maxUnaryLength < spelled.length then "" else spelled := by
  have hplaces : (sequence.alphabet.places spelled).length = spelled.length := by
    rw [Alphabet.places, List.length_map, String.length_toList]
  have hdistance : (sequence.folding.logicalIndex index).round.toInt128 = 0 :=
    Folding.toInt_logicalIndex_of_fold hfold (by decide) (by decide)
  have hmoved := Alphabet.shift?_zero (Alphabet.areDigits_places hspelled) (hplaces ▸ hlength)
  unfold wordAt
  dsimp only
  rw [hdistance, hdigits, Alphabet.digits?_of_consists hspelled, Option.getD_some, hmoved, hplaces]
  by_cases hlong : sequence.alphabet.size = 1 ∧ maxUnaryLength < spelled.length
  · rw [if_pos hlong, if_pos hlong]
  · rw [if_neg hlong, if_neg hlong]
    exact Alphabet.spell_places hspelled

/-- Without a padding and an expression the word at an index is emitted in the case of the start. -/
theorem text_emit_word (hpadding : sequence.padding = none) {hooks : Hooks} (hexpression : hooks.expression = "")
    (state : SequenceState) (index : Nat) :
    (sequence.producer.emit hooks state index).value.1.text = sequence.capitalized (sequence.wordAt index) := by
  refine (sequence.producer.text_emit hexpression rfl).trans ?_
  show renderText sequence.padding _ = _
  rw [hpadding]
  rfl

/-- Where no step has been made the start word is emitted, unless it is too long. -/
theorem text_emit_startWord (hcapital : sequence.capitalization = .preserve) (hpadding : sequence.padding = none)
    (hlength : sequence.word.length < 2 ^ 64) (hback : ∀ c ∈ sequence.word.toList, sequence.alphabet.ComesBack c)
    {hooks : Hooks} (hexpression : hooks.expression = "") {index : Nat} (hfold : sequence.folding.fold index = 0)
    (state : SequenceState) :
    (sequence.producer.emit hooks state index).value.1.text =
      if sequence.alphabet.size = 1 ∧ maxUnaryLength < sequence.word.length then "" else sequence.word := by
  obtain ⟨spelled, hspelled, hdigits, hcase⟩ := Alphabet.exists_consists hback
  have hsize : spelled.length = sequence.word.length := by
    rw [← String.length_toList, ← String.length_toList, hcase.length_eq]
  have hword := wordAt_of_fold hspelled hdigits (hsize ▸ hlength) hfold
  rw [text_emit_word hpadding hexpression, hword, hsize, capitalized, hcapital, capitalize]
  split
  · rw [String.toList_empty, preserveCase_nil, String.ofList_nil]
  · rw [preserveCase_of_forall₂ hcase, String.ofList_toList]

end WordSequence

/-- A start word that the alphabet spells makes a sequence of words. -/
theorem prepare_word {context : Context} {line word : String} {alphabet : Alphabet}
    (hstart : (classify context.segments context.settings.start line).start = .alpha word)
    (halphabet : Alphabet.ofText context.settings.alphabet = .ok alphabet) (hspells : alphabet.spells word) :
    (prepare context line).value =
      .ok (ofWord context (Modifiers.extract context.segments context.settings
        (classify context.segments context.settings.start line).remainder).value alphabet word) := by
  simp only [prepare, Logged.value_bind, hstart, ofStart, ofAlpha, halphabet, hspells]
  rfl

/-- A line that starts with a word makes a sequence of words if all characters of the word come back, and without a
padding and an expression the word is emitted wherever no step has been made.  Only over one letter there is nothing in
place of a word that is too long. -/
theorem emit_startWord {context : Context} {line word : String} {alphabet : Alphabet}
    (hstart : (classify context.segments context.settings.start line).start = .alpha word)
    (halphabet : Alphabet.ofText context.settings.alphabet = .ok alphabet)
    (hcapital : context.settings.alphaCapital = .preserve) (hlength : word.length < 2 ^ 64)
    (hback : ∀ c ∈ word.toList, alphabet.ComesBack c) :
    ∃ sequence, (prepare context line).value = .ok sequence ∧ sequence.kind = .alpha ∧
      sequence.modifiers = (Modifiers.extract context.segments context.settings
        (classify context.segments context.settings.start line).remainder).value ∧
      (trimmed sequence.modifiers.expression = "" → padding context sequence.modifiers = none →
        ∀ state index, sequence.modifiers.folding.fold index = 0 →
          (sequence.emit state index).value.1.text =
            if alphabet.size = 1 ∧ maxUnaryLength < word.length then "" else word) := by
  have hprepare := prepare_word hstart halphabet (Alphabet.spells_of_comesBack hback)
  generalize (Modifiers.extract context.segments context.settings _).value = modifiers at hprepare
  refine ⟨_, hprepare, rfl, rfl, fun hexpression hpadding state index hfold => ?_⟩
  let sequence : WordSequence :=
    { alphabet, word, folding := modifiers.folding, capitalization := context.settings.alphaCapital,
      padding := padding context modifiers }
  exact sequence.text_emit_startWord hcapital hpadding hlength hback hexpression hfold state

/-- Words over an alphabet, and a notation of words only. -/
def wordContext (alphabet : String) : Context :=
  { plainContext with
    settings := { alphabet }
    segments :=
      { entries :=
          [{ name := "alpha_body", text := [],
             pattern := (readPattern? "^(?P<word>\\p\x7bL\x7d+)$".toList).getD .nothing }] } }

/-- Capital letters with and without an accent come back behind a small one. -/
theorem emit_startWord_mixed_case :
    (∀ c ∈ "xÉX".toList, Alphabet.ComesBack ⟨['x', 'é'], by decide, by decide⟩ c) ∧
      ∃ sequence, (prepare (wordContext "xé") "xÉX").value = .ok sequence ∧
        (sequence.emit sequence.initial 0).value.1.text = "xÉX" := by
  have hback : ∀ c ∈ "xÉX".toList, Alphabet.ComesBack ⟨['x', 'é'], by decide, by decide⟩ c := by
    have hchars : "xÉX".toList = ['x', 'É', 'X'] := rfl
    rw [hchars]
    refine List.forall_mem_cons.2 ⟨.listed (by decide), List.forall_mem_cons.2 ⟨?_, List.forall_mem_singleton.2 ?_⟩⟩
    · exact @Alphabet.ComesBack.upper _ _ 'é' (by decide) (by decide) (by decide) (by decide)
    · exact @Alphabet.ComesBack.upper _ _ 'x' (by decide) (by decide) (by decide) (by decide)
  obtain ⟨sequence, hprepare, -, hmodifiers, hemit⟩ :=
    @emit_startWord (wordContext "xé") "xÉX" "xÉX" _ (by decide +kernel) rfl rfl (by decide) hback
  rw [hmodifiers] at hemit
  refine ⟨hback, sequence, hprepare, ?_⟩
  exact hemit (by decide +kernel) (by decide +kernel) sequence.initial 0 (by decide +kernel)

/-- A word of more letters than are made of one. -/
def longWord : String :=
  String.ofList (List.replicate (maxUnaryLength + 1) 'x')

theorem length_longWord : longWord.length = maxUnaryLength + 1 := by
  rw [longWord, String.length_ofList, List.length_replicate]

theorem comesBack_longWord : ∀ c ∈ longWord.toList, Alphabet.oneLetter.ComesBack c := by
  intro c hc
  rw [longWord, String.toList_ofList] at hc
  exact .listed (List.eq_of_mem_replicate hc ▸ List.mem_singleton_self 'x')

/-- Two letters, the first of which is the small one of the kelvin sign. -/
def kelvinAlphabet : Alphabet :=
  ⟨['k', 's'], by decide, by decide⟩

/-- The kelvin sign counts as a letter whose capital is another character, and a word over one letter can be too
long. -/
theorem startWord_changes :
    (∃ sequence, (prepare (wordContext "ks") "\u212A").value = .ok sequence ∧ sequence.kind = .alpha ∧
      kelvinAlphabet.spells "\u212A" ∧
      (trimmed sequence.modifiers.expression = "" ∧ padding (wordContext "ks") sequence.modifiers = none ∧
        sequence.modifiers.folding.fold 0 = 0) ∧
      (sequence.emit sequence.initial 0).value.1.text = "K" ∧ "K" ≠ "\u212A") ∧
      ∃ sequence, sequence = ofWord (wordContext "x") (Modifiers.ofSettings {}) Alphabet.oneLetter longWord ∧
        Alphabet.oneLetter.spells longWord ∧ (sequence.emit sequence.initial 0).value.1.text = "" ∧ longWord ≠ "" := by
  constructor
  · have hspells : kelvinAlphabet.spells "\u212A" := by decide +kernel
    have hprepare := @prepare_word (wordContext "ks") "\u212A" "\u212A" kelvinAlphabet (by decide +kernel) rfl hspells
    generalize hmodifiers : (Modifiers.extract (wordContext "ks").segments (wordContext "ks").settings _).value = modifiers
      at hprepare
    have hplain : trimmed modifiers.expression = "" ∧ padding (wordContext "ks") modifiers = none ∧
        modifiers.folding.fold 0 = 0 := by
      rw [← hmodifiers]
      decide +kernel
    -- The sign and the letter have the same lower case, so they are the same digit.
    have hdigits : kelvinAlphabet.digits? "\u212A" = kelvinAlphabet.digits? "k" := by decide +kernel
    have hconsists : kelvinAlphabet.Consists "k" := forall_of_all (by decide)
    have hcase : capitalize "k" .preserve "\u212A" = "K" := by decide +kernel
    let sequence : WordSequence :=
      { alphabet := kelvinAlphabet, word := "\u212A", folding := modifiers.folding, capitalization := .preserve,
        padding := padding (wordContext "ks") modifiers }
    have hword : sequence.wordAt 0 = "k" := WordSequence.wordAt_of_fold hconsists hdigits (by decide) hplain.2.2
    have htext := @WordSequence.text_emit_word sequence hplain.2.1 ((wordContext "ks").hooks modifiers) hplain.1
    refine ⟨_, hprepare, rfl, hspells, hplain, (htext _ 0).trans ?_, by decide⟩
    exact (congrArg sequence.capitalized hword).trans hcase
  · let sequence : WordSequence :=
      { alphabet := Alphabet.oneLetter, word := longWord, folding := (Modifiers.ofSettings {}).folding,
        capitalization := .preserve, padding := none }
    have hshort : longWord.length < 2 ^ 64 := by
      rw [length_longWord]
      decide
    have htext := @WordSequence.text_emit_startWord sequence rfl rfl hshort comesBack_longWord
      ((wordContext "x").hooks (Modifiers.ofSettings {})) rfl 0 (by decide)
    have hlong : maxUnaryLength < longWord.length := by
      rw [length_longWord]
      exact Nat.lt_succ_self _
    have hne : longWord ≠ "" := by
      intro hempty
      rw [hempty] at hlong
      cases hlong
    exact ⟨_, rfl, Alphabet.spells_of_comesBack comesBack_longWord, (htext _).trans (if_pos ⟨rfl, hlong⟩), hne⟩

end Sequence

end SequenceNotation
