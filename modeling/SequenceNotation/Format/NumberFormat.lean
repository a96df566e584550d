import SequenceNotation.Number.Text
import SequenceNotation.Text.Digit

/-!
# Number formats

A number format is written `[[fill]align][sign][#][0][width][,|_][.precision][kind]`.  This module holds
what a format says, how it is read, and how it prints a number.  Text that is no format leaves the number
in plain notation.
-/

namespace SequenceNotation.Format

open SequenceNotation.Number SequenceNotation.Text

/-- Where the fill goes. -/
inductive Alignment where
  | left | right | center | afterSign
  deriving DecidableEq, Repr

/-- What stands in front of a number that is not negative. -/
inductive SignRule where
  | nothing | plus | space
  deriving DecidableEq, Repr

/-- The notation of the digits. -/
inductive NumberKind where
  | binary | character | decimal | octal | lowerHex | upperHex | lowerExponent | upperExponent
  | lowerFixed | upperFixed | lowerGeneral | upperGeneral | percent
  deriving DecidableEq, Repr

/-- How a number is printed. -/
structure NumberFormat where
  fill : Char
  align : Alignment
  sign : SignRule
  alternate : Bool
  width : Nat
  grouping : Option Char
  precision : Option Nat
  kind : Option NumberKind
  deriving DecidableEq, Repr

namespace Alignment

def symbol : Alignment → Char
  | left => '<'
  | right => '>'
  | center => '^'
  | afterSign => '='

def ofSymbol? : Char → Option Alignment
  | '<' => some left
  | '>' => some right
  | '^' => some center
  | '=' => some afterSign
  | _ => none

end Alignment

namespace SignRule

def symbol : SignRule → Char
  | nothing => '-'
  | plus => '+'
  | space => ' '

def ofSymbol? : Char → Option SignRule
  | '-' => some nothing
  | '+' => some plus
  | ' ' => some space
  | _ => none

end SignRule

namespace NumberKind

def symbol : NumberKind → Char
  | binary => 'b'
  | character => 'c'
  | decimal => 'd'
  | octal => 'o'
  | lowerHex => 'x'
  | upperHex => 'X'
  | lowerExponent => 'e'
  | upperExponent => 'E'
  | lowerFixed => 'f'
  | upperFixed => 'F'
  | lowerGeneral => 'g'
  | upperGeneral => 'G'
  | percent => '%'

def ofSymbol? : Char → Option NumberKind
  | 'b' => some binary
  | 'c' => some character
  | 'd' => some decimal
  | 'o' => some octal
  | 'x' => some lowerHex
  | 'X' => some upperHex
  | 'e' => some lowerExponent
  | 'E' => some upperExponent
  | 'f' => some lowerFixed
  | 'F' => some upperFixed
  | 'g' => some lowerGeneral
  | 'G' => some upperGeneral
  | '%' => some percent
  | _ => none

end NumberKind

/-- The first bound of widths and precisions that is not met. -/
def countLimit : Nat := Nat.pow 2 64

/-- An integer in 32 bits with a sign. -/
def wrap32 (n : Int) : Int :=
  n.bmod (Nat.pow 2 32)

/-- An optional part of one character: its meaning, and what follows it. -/
def optionalPart {α : Type} (meaning : Char → Option α) : List Char → Option α × List Char
  | [] => (none, [])
  | c :: rest =>
    match meaning c with
    | some a => (some a, rest)
    | none => (none, c :: rest)

/-- The fill and the alignment in front of a format.  A fill needs an alignment behind it and is any
character but a line feed. -/
def spanAlignment : List Char → Option Char × Option Alignment × List Char
  | first :: rest =>
    match rest.head?.bind Alignment.ofSymbol?, Alignment.ofSymbol? first with
    | some align, _ =>
      if first = '\n' then (none, none, first :: rest) else (some first, some align, rest.tail)
    | none, some align => (none, some align, rest)
    | none, none => (none, none, first :: rest)
  | [] => (none, none, [])

/-- The precision behind a point, if digits follow it.  One that is no count is left out. -/
def spanPrecision : List Char → Option Nat × List Char
  | '.' :: rest =>
    match rest.span isDecimalDigit with
    | ([], _) => (none, '.' :: rest)
    | (digits, rest) => (readBounded? countLimit digits, rest)
  | rest => (none, rest)

namespace NumberFormat

/-- Reads a format.  A leading zero of the width stands for fill `0` behind the sign, unless an
alignment is given; a width that is no count is zero. -/
def parse? (text : List Char) : Option NumberFormat :=
  if text = [] then none
  else
    let (fill, align, rest) := spanAlignment text
    let (sign, rest) := optionalPart SignRule.ofSymbol? rest
    let (alternate, rest) := optionalPart (fun c => if c = '#' then some () else none) rest
    let (zero, rest) := optionalPart (fun c => if c = '0' then some () else none) rest
    let (width, rest) := rest.span isDecimalDigit
    let (grouping, rest) := optionalPart (fun c => if c = ',' ∨ c = '_' then some c else none) rest
    let (precision, rest) := spanPrecision rest
    let (kind, rest) := optionalPart NumberKind.ofSymbol? rest
    if rest ≠ [] then none
    else
      some
        { fill := fill.getD (if zero.isSome && align.isNone then '0' else ' ')
          align := align.getD (if zero.isSome then .afterSign else .right)
          sign := sign.getD .nothing
          alternate := alternate.isSome
          width := (readBounded? countLimit width).getD 0
          grouping
          precision
          kind }

end NumberFormat

/-- Digits with a separator in front of every group of `size`, counted from the right. -/
def groupDigits (separator : Char) (size : Nat) : List Char → List Char
  | [] => []
  | c :: rest =>
    if rest ≠ [] ∧ rest.length % size = 0 then c :: separator :: groupDigits separator size rest
    else c :: groupDigits separator size rest

/-- The text up to the first point, and the rest with its point. -/
def splitPoint (text : List Char) : List Char × List Char :=
  text.span (· ≠ '.')

/-- Without zeros at the end of a fraction, and without its point if nothing is left of it. -/
def withoutFractionZeros (text : List Char) : List Char :=
  if text.contains '.' then
    ((text.reverse.dropWhile (· = '0')).dropWhile (· = '.')).reverse
  else text

namespace NumberFormat

variable (format : NumberFormat)

/-- Groups the digits in front of the point by three. -/
def group (digits : List Char) : List Char :=
  match format.grouping with
  | none => digits
  | some separator =>
    let (whole, fraction) := splitPoint digits
    groupDigits separator 3 whole ++ fraction

/-- The fill around a number so that it is as wide as the format asks. -/
def pad (sign body : List Char) : List Char :=
  let missing := format.width - (sign.length + body.length)
  let fill (n : Nat) := List.replicate n format.fill
  match format.align with
  | .left => sign ++ body ++ fill missing
  | .right => fill missing ++ sign ++ body
  | .center => fill (missing / 2) ++ sign ++ body ++ fill (missing - missing / 2)
  | .afterSign => sign ++ fill missing ++ body

/-- The numeral of a whole number below `2 ^ 64` in a radix, in groups of four. -/
def radixBody (n radix : Nat) (marker : String) (upper : Bool) : List Char :=
  let digits := radixNumeral radix upper n
  let digits := match format.grouping with
    | some separator => groupDigits separator 4 digits
    | none => digits
  if format.alternate then marker.toList ++ digits else digits

/-- The magnitude with a count of places. -/
def fixedBody (places : Nat) (magnitude : Double) : List Char :=
  format.group (magnitude.toFixed places).toList

/-- A mantissa with `places` behind the point, and an exponent of at least two digits with its sign. -/
def scientificParts (places : Nat) (magnitude : Double) : List Char × List Char :=
  let (digits, exponent) := match magnitude with
    | .finite _ units _ => significantDigits places units
    | _ => ([], 0)
  (pointAfterFirst digits,
    (if exponent < 0 then '-' else '+') :: zeroPadded 2 (decimalDigits exponent.natAbs))

/-- The letter in front of an exponent. -/
def exponentLetter (upper : Bool) : Char :=
  if upper then 'E' else 'e'

/-- Scientific notation. -/
def scientificBody (upper : Bool) (places : Nat) (magnitude : Double) : List Char :=
  let (mantissa, exponent) := scientificParts places magnitude
  mantissa ++ exponentLetter upper :: exponent

/-- As many significant digits as the precision asks: fixed point for exponents from -4 up to the
precision, else scientific.  The places of fixed point are counted in 32 bits.  Zeros at the end of the
fraction are dropped unless asked for. -/
def generalBody (upper : Bool) (magnitude : Double) : List Char :=
  let precision := max (format.precision.getD 6) 1
  let shown (text : List Char) := if format.alternate then text else withoutFractionZeros text
  if magnitude.isZero then ['0']
  else
    let exponent := magnitude.log10.floor.toInt32
    if -4 ≤ exponent ∧ exponent < wrap32 precision then
      shown (format.fixedBody (wrap32 (precision - 1 - exponent)).toNat magnitude)
    else
      let (mantissa, exponent) := scientificParts (precision - 1) magnitude
      shown mantissa ++ exponentLetter upper :: exponent

/-- The digits of a magnitude in the notation of the format. -/
def body (magnitude : Double) : List Char :=
  let places := format.precision.getD 6
  let whole := magnitude.round.toNat64
  match format.kind with
  | some .binary => format.radixBody whole 2 "0b" false
  | some .octal => format.radixBody whole 8 "0o" false
  | some .lowerHex => format.radixBody whole 16 "0x" false
  | some .upperHex => format.radixBody whole 16 "0X" true
  | some .decimal => format.group (magnitude.round.toFixed 0).toList
  | some .lowerExponent => scientificBody false places magnitude
  | some .upperExponent => scientificBody true places magnitude
  | some .lowerFixed => format.fixedBody places magnitude
  | some .upperFixed => format.fixedBody places magnitude
  | some .lowerGeneral => format.generalBody false magnitude
  | some .upperGeneral => format.generalBody true magnitude
  | some .percent => format.fixedBody places (magnitude * 100) ++ ['%']
  | some .character => []
  | none =>
    match format.precision with
    | some places => format.fixedBody places magnitude
    | none => format.group magnitude.toText.toList

/-- The sign in front of the digits.  A negative zero keeps its sign only in a kind that is named. -/
def signText (value : Double) : List Char :=
  if value.less 0 || (value.isZero && value.signBit && format.kind.isSome) then ['-']
  else
    match format.sign with
    | .nothing => []
    | .plus => ['+']
    | .space => [' ']

/-- Prints a number.  A number that is no character's code is plain in the kind for characters, and
infinities and NaN have no sign of their own. -/
def apply (value : Double) : String :=
  if !value.isFinite then String.ofList (format.pad [] value.toText.toList)
  else if format.kind = some .character then
    let code := value.round.toNat32
    if code.isValidChar then String.ofList (format.pad [] [Char.ofNat code]) else value.toText
  else String.ofList (format.pad (format.signText value) (format.body value.abs))

end NumberFormat

/-- Prints a number with a format; text that is no format leaves it plain. -/
def formatNumber (value : Double) (spec : String) : String :=
  match NumberFormat.parse? spec.toList with
  | some format => format.apply value
  | none => value.toText

end SequenceNotation.Format
