/-!
# Byte offsets

Places in a text are counted in bytes of its UTF-8 form.  A cut inside a character is moved behind it.
-/

namespace SequenceNotation.Text

/-- The number of bytes of the characters. -/
def byteLength (text : List Char) : Nat :=
  text.foldr (fun c n => c.utf8Size + n) 0

/-- The characters that begin in the first `offset` bytes, and the others. -/
def splitAtByte (offset : Nat) : List Char → List Char × List Char
  | [] => ([], [])
  | c :: rest =>
    if offset = 0 then ([], c :: rest)
    else
      let (front, back) := splitAtByte (offset - c.utf8Size) rest
      (c :: front, back)

/-- The characters from one byte offset up to another. -/
def sliceBytes (start stop : Nat) (text : List Char) : List Char :=
  (splitAtByte (stop - start) (splitAtByte start text).2).1

theorem splitAtByte_append (offset : Nat) (text : List Char) :
    (splitAtByte offset text).1 ++ (splitAtByte offset text).2 = text := by
  induction text generalizing offset with
  | nil => rfl
  | cons c rest ih =>
    unfold splitAtByte
    split
    · rfl
    · simp [ih]

theorem byteLength_cons (c : Char) (rest : List Char) : byteLength (c :: rest) = c.utf8Size + byteLength rest :=
  rfl

theorem eq_nil_of_byteLength_eq_zero {text : List Char} (h : byteLength text = 0) : text = [] := by
  cases text with
  | nil => rfl
  | cons c rest =>
    have hc := Char.utf8Size_pos c
    rw [byteLength_cons] at h
    omega

theorem byteLength_append (front back : List Char) :
    byteLength (front ++ back) = byteLength front + byteLength back := by
  induction front with
  | nil => exact (Nat.zero_add _).symm
  | cons c rest ih =>
    show c.utf8Size + byteLength (rest ++ back) = c.utf8Size + byteLength rest + byteLength back
    rw [ih, Nat.add_assoc]

theorem splitAtByte_byteLength (front back : List Char) :
    splitAtByte (byteLength front) (front ++ back) = (front, back) := by
  induction front with
  | nil => cases back <;> simp [byteLength, splitAtByte]
  | cons c rest ih =>
    have hc := Char.utf8Size_pos c
    have hn : byteLength (c :: rest) = c.utf8Size + byteLength rest := rfl
    rw [List.cons_append, splitAtByte, hn, if_neg (by omega), Nat.add_sub_cancel_left, ih]

end SequenceNotation.Text
