import SequenceNotation.Number.Rounding

/-!
# Double-precision numbers

A finite double is a sign and a count of units of `2 ^ (-1074)`, the smallest positive double.  Every
operation computes the exact result on those counts and rounds it once, to the nearest double with
ties to the even significand.
-/

namespace SequenceNotation.Number

/-- The first count of units past the doubles: `2 ^ 1024` in units of `2 ^ (-1074)`. -/
def unitsLimit : Nat := Nat.pow 2 2098

/-- A count of units is a double when its significand has 53 bits and it lies below `2 ^ 1024`. -/
def OnGrid (units : Nat) : Prop :=
  spacing units ∣ units ∧ units < unitsLimit

instance (units : Nat) : Decidable (OnGrid units) :=
  inferInstanceAs (Decidable (_ ∧ _))

/-- A double-precision number; the units of a finite one are `2 ^ (-1074)` each. -/
inductive Double where
  | nan
  | infinite (negative : Bool)
  | finite (negative : Bool) (units : Nat) (onGrid : OnGrid units)
  deriving DecidableEq

namespace Double

/-- The number of units in one. -/
def unitsPerOne : Nat := Nat.pow 2 1074

/-- The double nearest to `num / den` units; from `2 ^ 1024` on that is an infinity. -/
def nearest (negative : Bool) (num den : Nat) : Double :=
  if h : nearestUnits num den < unitsLimit then
    .finite negative (nearestUnits num den) ⟨spacing_nearestUnits_dvd num den, h⟩
  else
    .infinite negative

/-- The double nearest to a natural number, with the sign given. -/
def ofWhole (negative : Bool) (n : Nat) : Double :=
  nearest negative (n * unitsPerOne) 1

/-- The double nearest to a natural number. -/
def ofNat (n : Nat) : Double :=
  ofWhole false n

/-- The double nearest to an integer. -/
def ofInt (n : Int) : Double :=
  ofWhole (n < 0) n.natAbs

instance (n : Nat) : OfNat Double n := ⟨ofNat n⟩

instance : Inhabited Double := ⟨.nan⟩

def posInfinity : Double := .infinite false
def negInfinity : Double := .infinite true

def isNan : Double → Bool
  | .nan => true
  | _ => false

def isFinite : Double → Bool
  | .finite .. => true
  | _ => false

def isZero : Double → Bool
  | .finite _ units _ => units == 0
  | _ => false

/-- The sign bit; a NaN counts as positive. -/
def signBit : Double → Bool
  | .nan => false
  | .infinite negative => negative
  | .finite negative _ _ => negative

/-- Whether the number is finite and has no fraction. -/
def isWhole : Double → Bool
  | .finite _ units _ => units % unitsPerOne == 0
  | _ => false

/-- The units with their sign. -/
def signedUnits (negative : Bool) (units : Nat) : Int :=
  if negative then -(units : Int) else units

def neg : Double → Double
  | .nan => .nan
  | .infinite negative => .infinite !negative
  | .finite negative units h => .finite (!negative) units h

def abs : Double → Double
  | .nan => .nan
  | .infinite _ => .infinite false
  | .finite _ units h => .finite false units h

/-- The rounded sum; an exact zero is negative only when both operands are. -/
def add : Double → Double → Double
  | .nan, _ => .nan
  | _, .nan => .nan
  | .infinite a, .infinite b => if a == b then .infinite a else .nan
  | .infinite a, .finite .. => .infinite a
  | .finite .., .infinite b => .infinite b
  | .finite s a _, .finite t b _ =>
    let sum := signedUnits s a + signedUnits t b
    if sum = 0 then nearest (s && t) 0 1 else nearest (sum < 0) sum.natAbs 1

def sub (x y : Double) : Double :=
  add x (neg y)

/-- The rounded product. -/
def mul : Double → Double → Double
  | .nan, _ => .nan
  | _, .nan => .nan
  | .infinite a, .infinite b => .infinite (a != b)
  | .infinite a, .finite t u _ => if u = 0 then .nan else .infinite (a != t)
  | .finite s u _, .infinite b => if u = 0 then .nan else .infinite (s != b)
  | .finite s a _, .finite t b _ => nearest (s != t) (a * b) unitsPerOne

/-- The rounded quotient; a nonzero number divided by zero is an infinity. -/
def div : Double → Double → Double
  | .nan, _ => .nan
  | _, .nan => .nan
  | .infinite _, .infinite _ => .nan
  | .infinite a, .finite t _ _ => .infinite (a != t)
  | .finite s _ _, .infinite b => nearest (s != b) 0 1
  | .finite s a _, .finite t b _ =>
    if b = 0 then (if a = 0 then .nan else .infinite (s != t))
    else nearest (s != t) (a * unitsPerOne) b

/-- The remainder of the division that truncates; it has the sign of the dividend. -/
def rem : Double → Double → Double
  | .nan, _ => .nan
  | _, .nan => .nan
  | .infinite _, _ => .nan
  | .finite s a h, .infinite _ => .finite s a h
  | .finite s a _, .finite _ b _ => if b = 0 then .nan else nearest s (a % b) 1

/-- The largest natural number whose square is at most `n`, found bit by bit. -/
def rootFloor (n : Nat) : Nat :=
  (List.range (bitLength n / 2 + 1)).foldr
    (fun i r => let t := r + Nat.pow 2 i; if t * t ≤ n then t else r) 0

/-- The rounded square root.  A root that is not whole lies strictly between two whole numbers of
units, so half a unit stands for its fraction. -/
def sqrt : Double → Double
  | .nan => .nan
  | .infinite negative => if negative then .nan else .infinite false
  | .finite negative units h =>
    if units = 0 then .finite negative units h
    else if negative then .nan
    else
      let square := units * unitsPerOne
      let root := rootFloor square
      if root * root = square then nearest false root 1 else nearest false (2 * root + 1) 2

/-- Whether two numbers compare equal: zeros of both signs do, a NaN never does. -/
def equal : Double → Double → Bool
  | .infinite a, .infinite b => a == b
  | .finite s a _, .finite t b _ => signedUnits s a == signedUnits t b
  | _, _ => false

/-- Whether the first number is below the second; false when one is a NaN. -/
def less : Double → Double → Bool
  | .nan, _ => false
  | _, .nan => false
  | .infinite a, .infinite b => a && !b
  | .infinite a, .finite .. => a
  | .finite .., .infinite b => !b
  | .finite s a _, .finite t b _ => signedUnits s a < signedUnits t b

/-- Whether the first number is at most the second; false when one is a NaN. -/
def atMost (x y : Double) : Bool :=
  less x y || equal x y

/-- The order of two numbers, unless one is a NaN. -/
def compare? (x y : Double) : Option Ordering :=
  if less x y then some .lt
  else if less y x then some .gt
  else if equal x y then some .eq
  else none

/-- The nearest whole number towards zero; the sign is kept. -/
def trunc : Double → Double
  | .finite negative units _ => ofWhole negative (units / unitsPerOne)
  | x => x

/-- The magnitude rounded up to a whole number; the sign is kept. -/
def awayFromZero : Double → Double
  | .finite negative units _ => ofWhole negative ((units + unitsPerOne - 1) / unitsPerOne)
  | x => x

/-- The greatest whole number that is not above. -/
def floor (x : Double) : Double :=
  if x.signBit then awayFromZero x else trunc x

/-- The least whole number that is not below. -/
def ceil (x : Double) : Double :=
  if x.signBit then trunc x else awayFromZero x

/-- The nearest whole number, halves away from zero; the sign is kept. -/
def round : Double → Double
  | .finite negative units _ => ofWhole negative (roundHalfUp units unitsPerOne)
  | x => x

/-- The integer part, cut to the range `low … high`; a NaN becomes zero. -/
def toInt (x : Double) (low high : Int) : Int :=
  match x with
  | .nan => 0
  | .infinite negative => if negative then low else high
  | .finite negative units _ => max low (min high (signedUnits negative (units / unitsPerOne)))

def toInt32 (x : Double) : Int := x.toInt (-(Nat.pow 2 31)) (Nat.pow 2 31 - 1)
def toInt64 (x : Double) : Int := x.toInt (-(Nat.pow 2 63)) (Nat.pow 2 63 - 1)
def toInt128 (x : Double) : Int := x.toInt (-(Nat.pow 2 127)) (Nat.pow 2 127 - 1)
def toNat32 (x : Double) : Nat := (x.toInt 0 (Nat.pow 2 32 - 1)).toNat
def toNat64 (x : Double) : Nat := (x.toInt 0 (Nat.pow 2 64 - 1)).toNat

/-- The 64-bit word of a number: sign, biased exponent and fraction. -/
def toWord : Double → UInt64
  | .nan => 0x7FF8000000000000
  | .infinite negative => (if negative then 0x8000000000000000 else 0) ||| 0x7FF0000000000000
  | .finite negative units _ =>
    let shift := bitLength units - 53
    (if negative then 0x8000000000000000 else 0) ||| UInt64.ofNat (shift * Nat.pow 2 52 + units / Nat.pow 2 shift)

/-- The number that a 64-bit word stands for. -/
def ofWord (word : UInt64) : Double :=
  let n := word.toNat
  let negative : Bool := Nat.pow 2 63 ≤ n
  let exponent := n / Nat.pow 2 52 % Nat.pow 2 11
  let fraction := n % Nat.pow 2 52
  if exponent = 2047 then (if fraction = 0 then .infinite negative else .nan)
  else if exponent = 0 then nearest negative fraction 1
  else nearest negative ((Nat.pow 2 52 + fraction) * Nat.pow 2 (exponent - 1)) 1

/-- The power as the machine computes it. -/
def pow (x y : Double) : Double :=
  ofWord (Float.pow (Float.ofBits x.toWord) (Float.ofBits y.toWord)).toBits

/-- The decimal logarithm as the machine computes it. -/
def log10 (x : Double) : Double :=
  ofWord (Float.log10 (Float.ofBits x.toWord)).toBits

/-- The double nearest to the ratio of a circle to its diameter. -/
def pi : Double := nearest false (884279719003555 * unitsPerOne) (Nat.pow 2 48)

/-- The double nearest to the base of the natural logarithm. -/
def euler : Double := nearest false (6121026514868073 * unitsPerOne) (Nat.pow 2 51)

instance : Add Double := ⟨add⟩
instance : Sub Double := ⟨sub⟩
instance : Mul Double := ⟨mul⟩
instance : Div Double := ⟨div⟩
instance : Neg Double := ⟨neg⟩

end Double

end SequenceNotation.Number
