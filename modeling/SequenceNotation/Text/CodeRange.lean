/-!
# Tables of code points

Properties of characters are given as ordered lists of runs of code points.  A run with a stride holds
every code point at that distance from its first.
-/

namespace SequenceNotation.Text

/-- Whether the code point lies in one of the runs. -/
def inRanges (ranges : List (Nat × Nat)) (code : Nat) : Bool :=
  ranges.any fun (first, last) => first ≤ code && code ≤ last

/-- Whether the code point lies in a run `(first, last, stride)`. -/
def inStridedRanges (ranges : List (Nat × Nat × Nat)) (code : Nat) : Bool :=
  ranges.any fun (first, last, stride) =>
    first ≤ code && code ≤ last && (code - first) % stride == 0

/-- The image of a code point under the runs `(first, last, stride, image)`, which move every code
point as far as their first, whose image is given. -/
def imageOf? (ranges : List (Nat × Nat × Nat × Nat)) (code : Nat) : Option Nat :=
  (ranges.find? fun (first, last, stride, _) =>
    first ≤ code && code ≤ last && (code - first) % stride == 0).map
      fun (first, _, _, image) => code + image - first

/-- A property of the characters of a list, checked one by one. -/
theorem forall_of_all {p : Char → Prop} [DecidablePred p] {chars : List Char}
    (h : chars.all (p ·) = true) : ∀ c ∈ chars, p c :=
  fun c hc => of_decide_eq_true (List.all_eq_true.1 h c hc)

end SequenceNotation.Text
