import SequenceNotation.Notation.Start

/-!
# Random draws

A draw lies between the start and the point that is its magnitude away.  Without places it is an integer,
and otherwise a number rounded to the places.  Which of the possible values it is depends on an outcome,
which is any natural number.
-/

namespace SequenceNotation.Sequence

open SequenceNotation.Number SequenceNotation.Notation

/-- The outcome of a draw: a seed and a count of draws mixed into 64 bits. -/
def outcome (seed count : Nat) : Nat :=
  let state := UInt64.ofNat seed + UInt64.ofNat (count + 1) * 0x9E3779B97F4A7C15
  let state := (state ^^^ (state >>> 30)) * 0xBF58476D1CE4E5B9
  let state := (state ^^^ (state >>> 27)) * 0x94D049BB133111EB
  (state ^^^ (state >>> 31)).toNat

/-- The ends of a draw, lower one first. -/
def drawRange (start : Double) (spread : RandomSpread) : Double × Double :=
  let stop := if spread.negative then start - spread.magnitude else start + spread.magnitude
  if start.atMost stop then (start, stop) else (stop, start)

/-- One of the integers from `low` to `high`. -/
def drawInteger (outcome : Nat) (low high : Int) : Int :=
  low + (outcome : Int) % (high - low + 1)

/-- A number moved into a range. -/
def clamp (low high x : Double) : Double :=
  if x.less low then low else if high.less x then high else x

/-- The count of numbers among which a draw with places chooses. -/
def drawSteps : Nat := Nat.pow 2 53

/-- One of the numbers from `low` to `high`, at an even distance from each other. -/
def drawNumber (outcome : Nat) (low high : Double) : Double :=
  let share := Double.ofNat (outcome % (drawSteps + 1)) / Double.ofNat drawSteps
  clamp low high (low + share * (high - low))

/-- The power of ten of a count of places.  The count is cut to 32 bits, the last of which is a sign. -/
def placesScale (places : Nat) : Double :=
  let exponent := (places : Int).bmod (Nat.pow 2 32)
  let power := Double.ofNat (Nat.pow 10 exponent.natAbs)
  if exponent < 0 then 1 / power else power

/-- A number rounded to decimal places. -/
def roundToPlaces (places : Nat) (x : Double) : Double :=
  (x * placesScale places).round / placesScale places

/-- The value of a draw. -/
def draw (outcome : Nat) (start : Double) (spread : RandomSpread) : Double :=
  let (low, high) := drawRange start spread
  if spread.precision = 0 then
    Double.ofInt (drawInteger outcome low.round.toInt64 high.round.toInt64)
  else
    clamp low high (roundToPlaces spread.precision (drawNumber outcome low high))

end SequenceNotation.Sequence
