import SequenceNotation.Alphabet.PlainDigits
import SequenceNotation.Text.Case

/-!
# Alphabets

An alphabet lists its letters in order, each once.  A word over `N` letters is a number in bijective
numeration: its digits run from 1 to `N`, there is no zero, and the empty word stands for zero.  So words
are ordered by length and then by their letters, and every number has exactly one word.
-/

namespace SequenceNotation

open SequenceNotation.Text

/-- Why a text is no alphabet. -/
inductive AlphabetFault where
  | duplicate (letter : Char)
  | empty
  deriving DecidableEq, Repr

def AlphabetFault.message : AlphabetFault → String
  | duplicate letter => "alphabet contains duplicate character '" ++ String.singleton letter ++ "'"
  | empty => "alphabet is empty"

structure Alphabet where
  letters : List Char
  nonempty : letters ≠ []
  nodup : letters.Nodup

namespace Alphabet

/-- The first character that stands in a text a second time, given those in front of the text. -/
def firstDuplicate? (seen : List Char) : List Char → Option Char
  | [] => none
  | c :: rest => if c ∈ seen then some c else firstDuplicate? (c :: seen) rest

theorem nodup_of_firstDuplicate? {seen text : List Char} (h : firstDuplicate? seen text = none) :
    text.Nodup ∧ ∀ c ∈ text, c ∉ seen := by
  induction text generalizing seen with
  | nil => simp
  | cons c rest ih =>
    rw [firstDuplicate?] at h
    split at h
    · simp at h
    · next hc =>
      obtain ⟨hnodup, hseen⟩ := ih h
      refine ⟨List.nodup_cons.2 ⟨fun hmem => ?_, hnodup⟩, fun d hd => ?_⟩
      · exact hseen c hmem List.mem_cons_self
      · rcases List.mem_cons.1 hd with rfl | hd
        · exact hc
        · exact fun hds => hseen d hd (List.mem_cons_of_mem _ hds)

/-- The alphabet that a text lists. -/
def ofText (text : String) : Except AlphabetFault Alphabet :=
  if hempty : text.toList = [] then .error .empty
  else
    match h : firstDuplicate? [] text.toList with
    | some letter => .error (.duplicate letter)
    | none => .ok ⟨text.toList, hempty, (nodup_of_firstDuplicate? h).1⟩

def size (alphabet : Alphabet) : Nat :=
  alphabet.letters.length

/-- The place of a letter; one that is not listed counts in the other case. -/
def position? (alphabet : Alphabet) (c : Char) : Option Nat :=
  let listed (c : Char) := alphabet.letters.idxOf? c
  listed c <|> (lowerChar c).head?.bind listed <|> (upperChar c).head?.bind listed

/-- Whether all characters of a word are letters, in either case. -/
def spells (alphabet : Alphabet) (word : String) : Bool :=
  word.toList.all fun c => (alphabet.position? c).isSome

/-- The digits of a word, most significant first. -/
def digits? (alphabet : Alphabet) (word : String) : Option (List Nat) :=
  word.toList.mapM fun c => (alphabet.position? c).map (· + 1)

/-- The word with the given digits. -/
def spell (alphabet : Alphabet) (digits : List Nat) : String :=
  String.ofList (digits.filterMap fun digit => alphabet.letters[digit - 1]?)

end Alphabet

/-- The longest word that an alphabet of one letter makes. -/
def maxUnaryLength : Nat := Nat.pow 2 16

namespace Alphabet

/-- The digits of the word `delta` places behind another one.  No word stands in front of the empty one.
With one letter only the length of the word counts, which is limited and computed in 128 bits with a sign. -/
def shift? (alphabet : Alphabet) (digits : List Nat) (delta : Int) : Option (List Nat) :=
  if alphabet.size = 1 then
    let length := (digits.length + delta).bmod (Nat.pow 2 128)
    if 0 ≤ length ∧ length ≤ maxUnaryLength then some (List.replicate length.toNat 1) else none
  else
    let plain := plainOfWord alphabet.size digits
    let amount := plainDigits alphabet.size delta.natAbs
    let moved :=
      if delta < 0 then subtractDigits? alphabet.size 0 plain amount else some (addDigits alphabet.size 0 plain amount)
    moved.map (wordOfPlain alphabet.size)

/-- The word for a number of at most 128 bits, whose last bit counts as a sign. -/
def decode (alphabet : Alphabet) (n : Nat) : String :=
  match alphabet.shift? [] ((n : Int).bmod (Nat.pow 2 128)) with
  | some digits => alphabet.spell digits
  | none => ""

end Alphabet

end SequenceNotation
