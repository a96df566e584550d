import SequenceNotation.Proofs.Alphabet.Arithmetic

/-!
# Counting words

Words are ordered by length and then by the places of their letters in the alphabet.  Counting from the empty word
visits all words in this order, and a word is moved forward exactly by positive distances.
-/

namespace SequenceNotation.Alphabet

variable (alphabet : Alphabet)

/-! ### Words over an alphabet -/

/-- All characters of a word are letters. -/
def Consists (word : String) : Prop :=
  ∀ c ∈ word.toList, c ∈ alphabet.letters

/-- A word stands in front of another one: it is shorter, or of the same length and the first letters in which they
differ are in this order. -/
def Earlier (word word' : String) : Prop :=
  List.Shortlex (fun c d => alphabet.letters.idxOf c < alphabet.letters.idxOf d) word.toList word'.toList

/-- The places of the characters of a word, counted from one. -/
def places (word : String) : List Nat :=
  word.toList.map fun c => alphabet.letters.idxOf c + 1

variable {alphabet}

theorem idxOf?_of_mem {c : Char} (h : c ∈ alphabet.letters) :
    alphabet.letters.idxOf? c = some (alphabet.letters.idxOf c) :=
  List.idxOf?_eq_some_iff.2 ⟨List.idxOf_lt_length_iff.2 h, List.getElem_idxOf _, fun place hplace heq =>
    absurd (heq ▸ alphabet.nodup.idxOf_getElem place _) (by omega)⟩

theorem position?_of_mem {c : Char} (h : c ∈ alphabet.letters) :
    alphabet.position? c = some (alphabet.letters.idxOf c) := by
  rw [position?]
  simp [idxOf?_of_mem h]

theorem digits?_of_consists {word : String} (h : alphabet.Consists word) :
    alphabet.digits? word = some (alphabet.places word) := by
  unfold Consists at h
  unfold digits? places
  generalize word.toList = letters at h ⊢
  induction letters with
  | nil => rfl
  | cons c rest ih =>
    obtain ⟨hc, hrest⟩ := List.forall_mem_cons.1 h
    simp [List.mapM_cons, position?_of_mem hc, ih hrest]

theorem areDigits_places {word : String} (h : alphabet.Consists word) :
    AreDigits alphabet.size (alphabet.places word) := by
  intro digit hdigit
  obtain ⟨c, hc, rfl⟩ := List.mem_map.1 hdigit
  have hplace : alphabet.letters.idxOf c < alphabet.size := List.idxOf_lt_length_iff.2 (h c hc)
  constructor <;> omega

theorem spell_places {word : String} (h : alphabet.Consists word) :
    alphabet.spell (alphabet.places word) = word := by
  have hletters : (alphabet.places word).filterMap (fun digit => alphabet.letters[digit - 1]?) = word.toList := by
    unfold Consists at h
    unfold places
    generalize word.toList = letters at h ⊢
    induction letters with
    | nil => rfl
    | cons c rest ih =>
      obtain ⟨hc, hrest⟩ := List.forall_mem_cons.1 h
      simp [List.getElem?_idxOf hc, ih hrest]
  rw [spell, hletters, String.ofList_toList]

/-- Digits that occur in words are the places of the letters of one. -/
theorem exists_places {digits : List Nat} (h : AreDigits alphabet.size digits) :
    ∃ word, alphabet.Consists word ∧ alphabet.places word = digits := by
  have hletters : ∃ letters : List Char, (∀ c ∈ letters, c ∈ alphabet.letters) ∧
      letters.map (fun c => alphabet.letters.idxOf c + 1) = digits := by
    induction digits with
    | nil => exact ⟨[], by simp, rfl⟩
    | cons digit rest ih =>
      obtain ⟨hdigit, hrest⟩ := List.forall_mem_cons.1 h
      obtain ⟨letters, hmem, hletters⟩ := ih hrest
      have hlt : digit - 1 < alphabet.letters.length := by
        have hsize : digit ≤ alphabet.letters.length := hdigit.2
        omega
      refine ⟨alphabet.letters[digit - 1] :: letters, List.forall_mem_cons.2 ⟨List.getElem_mem hlt, hmem⟩, ?_⟩
      rw [List.map_cons, hletters, alphabet.nodup.idxOf_getElem, Nat.sub_add_cancel hdigit.1]
  obtain ⟨letters, hmem, hletters⟩ := hletters
  exact ⟨String.ofList letters, by simpa [Consists] using hmem, by simpa [places] using hletters⟩

theorem consists_spell {digits : List Nat} (h : AreDigits alphabet.size digits) :
    alphabet.Consists (alphabet.spell digits) ∧ alphabet.places (alphabet.spell digits) = digits := by
  obtain ⟨word, hword, rfl⟩ := exists_places h
  rw [spell_places hword]
  exact ⟨hword, rfl⟩

/-- The order of letters is the order of their places. -/
theorem lex_map_iff {α β : Type} {r : α → α → Prop} {s : β → β → Prop} {f : α → β} {front back : List α}
    (horder : ∀ x ∈ front, ∀ y ∈ back, r x y ↔ s (f x) (f y)) (hinj : ∀ x ∈ front, ∀ y ∈ back, f x = f y → x = y) :
    List.Lex r front back ↔ List.Lex s (front.map f) (back.map f) := by
  induction front generalizing back with
  | nil => cases back <;> simp
  | cons x front ih =>
    cases back with
    | nil => simp
    | cons y back =>
      have hhead : f x = f y ↔ x = y := ⟨hinj x (by simp) y (by simp), congrArg f⟩
      have htail : List.Lex r front back ↔ List.Lex s (front.map f) (back.map f) :=
        ih (fun a ha b hb => horder a (by simp [ha]) b (by simp [hb]))
          fun a ha b hb => hinj a (by simp [ha]) b (by simp [hb])
      simp only [List.map_cons, List.cons_lex_cons_iff, horder x (by simp) y (by simp), hhead, htail]

theorem earlier_iff {word word' : String} (h : alphabet.Consists word) :
    alphabet.Earlier word word' ↔ List.Shortlex (· < ·) (alphabet.places word) (alphabet.places word') := by
  have hlex : List.Lex (fun c d => alphabet.letters.idxOf c < alphabet.letters.idxOf d) word.toList word'.toList ↔
      List.Lex (· < ·) (alphabet.places word) (alphabet.places word') :=
    lex_map_iff (by simp) fun c hc d _ heq => (List.idxOf_inj (h c hc)).1 (Nat.succ.inj heq)
  simp only [Earlier, List.shortlex_def, places, List.length_map] at hlex ⊢
  rw [hlex]

/-- Words over the alphabet are ordered as their numbers are. -/
theorem earlier_iff_digitsNumber {word word' : String} (h : alphabet.Consists word) (h' : alphabet.Consists word') :
    alphabet.Earlier word word' ↔
      digitsNumber alphabet.size (alphabet.places word) < digitsNumber alphabet.size (alphabet.places word') := by
  rw [earlier_iff h, digitsNumber_lt_iff (areDigits_places h) (areDigits_places h')]

/-! ### Moving words -/

theorem shift?_one (h : 2 ≤ alphabet.size) (n : Nat) :
    alphabet.shift? (numberDigits alphabet.size n) 1 = some (numberDigits alphabet.size (n + 1)) := by
  rw [shift?_eq h (areDigits_numberDigits (by omega) n), digitsNumber_numberDigits, if_pos (by omega)]
  rfl

/-- What a word is moved to is later exactly if the distance is positive. -/
theorem earlier_shift?_iff (h : 2 ≤ alphabet.size) {digits : List Nat} (hdigits : AreDigits alphabet.size digits)
    (delta : Int) :
    (∃ digits', alphabet.shift? digits delta = some digits' ∧ AreDigits alphabet.size digits' ∧
        alphabet.Earlier (alphabet.spell digits) (alphabet.spell digits')) ↔ 0 < delta := by
  have hword := consists_spell hdigits
  have hmoved := @areDigits_numberDigits alphabet.size (by omega)
  have hlater (n : Nat) : alphabet.Earlier (alphabet.spell digits) (alphabet.spell (numberDigits alphabet.size n)) ↔
      digitsNumber alphabet.size digits < n := by
    have hspelled := consists_spell (hmoved n)
    rw [earlier_iff_digitsNumber hword.1 hspelled.1, hword.2, hspelled.2, digitsNumber_numberDigits]
  rw [shift?_eq h hdigits]
  constructor
  · rintro ⟨digits', hshift, -, hearlier⟩
    split at hshift
    · obtain rfl := Option.some.inj hshift
      have := (hlater _).1 hearlier
      omega
    · cases hshift
  · intro hpos
    rw [if_pos (by omega)]
    exact ⟨_, rfl, hmoved _, (hlater _).2 (by omega)⟩

/-! ### Counting -/

variable (alphabet) in
/-- The digits behind so many steps by one from the empty word. -/
def counted? : Nat → Option (List Nat)
  | 0 => some []
  | steps + 1 => (counted? steps).bind fun digits => alphabet.shift? digits 1

variable (alphabet) in
/-- The word behind so many steps by one from the empty word. -/
def countedWord? (steps : Nat) : Option String :=
  (alphabet.counted? steps).map alphabet.spell

theorem counted?_eq (h : 2 ≤ alphabet.size) (steps : Nat) :
    alphabet.counted? steps = some (numberDigits alphabet.size steps) := by
  induction steps with
  | zero => rw [counted?, numberDigits_zero]
  | succ steps ih => rw [counted?, ih, Option.bind_some, shift?_one h]

/-- The word that is reached is the one whose number is the count of steps. -/
theorem countedWord?_eq_some_iff (h : 2 ≤ alphabet.size) {steps : Nat} {word : String} :
    alphabet.countedWord? steps = some word ↔
      alphabet.Consists word ∧ digitsNumber alphabet.size (alphabet.places word) = steps := by
  have hspelled := consists_spell (@areDigits_numberDigits alphabet.size (by omega) steps)
  rw [countedWord?, counted?_eq h, Option.map_some, Option.some.injEq]
  constructor
  · rintro rfl
    exact ⟨hspelled.1, by rw [hspelled.2, digitsNumber_numberDigits]⟩
  · rintro ⟨hword, rfl⟩
    rw [numberDigits_digitsNumber (areDigits_places hword), spell_places hword]

/-- Counting from the empty word visits each word over an alphabet of two letters at least exactly once and nothing
else.  Each step goes to the word that follows immediately, and the digits of a word lead on as they led to it.  A word
is moved to a later one exactly by a positive distance. -/
theorem counting_enumerates (alphabet : Alphabet) (h : 2 ≤ alphabet.size) :
    (∀ steps, ∃ word, alphabet.countedWord? steps = some word ∧ alphabet.Consists word ∧
      alphabet.digits? word = alphabet.counted? steps) ∧
    (∀ word, alphabet.Consists word → ∃! steps, alphabet.countedWord? steps = some word) ∧
    (∀ steps word next, alphabet.countedWord? steps = some word → alphabet.countedWord? (steps + 1) = some next →
      alphabet.Earlier word next ∧
        ∀ other, alphabet.Consists other → ¬ (alphabet.Earlier word other ∧ alphabet.Earlier other next)) ∧
    ∀ digits, AreDigits alphabet.size digits → ∀ delta,
      (∃ digits', alphabet.shift? digits delta = some digits' ∧ AreDigits alphabet.size digits' ∧
        alphabet.Earlier (alphabet.spell digits) (alphabet.spell digits')) ↔ 0 < delta := by
  refine ⟨fun steps => ?_, fun word hword => ?_, fun steps word next hown hnext => ?_,
    fun digits hdigits delta => earlier_shift?_iff h hdigits delta⟩
  · have hspelled := consists_spell (@areDigits_numberDigits alphabet.size (by omega) steps)
    refine ⟨_, by rw [countedWord?, counted?_eq h]; rfl, hspelled.1, ?_⟩
    rw [digits?_of_consists hspelled.1, hspelled.2, counted?_eq h]
  · refine ⟨digitsNumber alphabet.size (alphabet.places word), (countedWord?_eq_some_iff h).2 ⟨hword, rfl⟩, ?_⟩
    intro steps hsteps
    exact ((countedWord?_eq_some_iff h).1 hsteps).2.symm
  · obtain ⟨hword, hnumber⟩ := (countedWord?_eq_some_iff h).1 hown
    obtain ⟨hword', hnumber'⟩ := (countedWord?_eq_some_iff h).1 hnext
    constructor
    · rw [earlier_iff_digitsNumber hword hword']
      omega
    · rintro other hother ⟨hbehind, hfront⟩
      rw [earlier_iff_digitsNumber hword hother] at hbehind
      rw [earlier_iff_digitsNumber hother hword'] at hfront
      omega

/-- Two letters, the second of which stands in front of the first one in Unicode. -/
def twoLetters : Alphabet :=
  ⟨['b', 'a'], by decide, by decide⟩

theorem counting_enumerates_two_letters :
    2 ≤ twoLetters.size ∧
      (∀ word, twoLetters.Consists word → ∃! steps, twoLetters.countedWord? steps = some word) ∧
      (List.range 5).map twoLetters.countedWord? = [some "", some "b", some "a", some "bb", some "ba"] := by
  have hsize : 2 ≤ twoLetters.size := by decide
  have hcounted : twoLetters.countedWord? =
      fun steps => some (twoLetters.spell (numberDigits twoLetters.size steps)) := by
    funext steps
    rw [countedWord?, counted?_eq hsize, Option.map_some]
  refine ⟨hsize, (counting_enumerates twoLetters hsize).2.1, ?_⟩
  rw [hcounted]
  cbv

end SequenceNotation.Alphabet
