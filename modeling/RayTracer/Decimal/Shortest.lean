import RayTracer.Decimal.Rounded

/-!
The shortest decimal that reads back. Around every binary number lies the interval of the reals that
round to it, and of the decimals in it one with the fewest digits is written, the nearest among those.
-/

namespace RayTracer.Decimal

/-- The interval of the reals that round to a number, in quarters of its last place: the lower end, the
number and the upper end. The ends belong to it when the mantissa is even. Below a power of two the
numbers lie twice as dense. -/
structure RoundingInterval where
  lower : Nat
  middle : Nat
  upper : Nat
  inclusive : Bool

def RoundingInterval.of (mantissa : Nat) (exponent : Int) : RoundingInterval :=
  let below := if mantissa = (1 <<< 52) ∧ -1074 < exponent then 1 else 2
  { lower := 4 * mantissa - below
    middle := 4 * mantissa
    upper := 4 * mantissa + 2
    inclusive := mantissa % 2 == 0 }

/-- Whether a multiple of a decimal unit lies in the interval, for a unit of `unit` and a quarter of a
last place of `quarter`. -/
def RoundingInterval.holds (range : RoundingInterval) (quarter unit multiple : Nat) : Bool :=
  if range.inclusive then
    range.lower * quarter ≤ multiple * unit && multiple * unit ≤ range.upper * quarter
  else range.lower * quarter < multiple * unit && multiple * unit < range.upper * quarter

/-- The multiple of a decimal unit that reads back, if one of the two next to the number does; of two
the nearer. -/
def RoundingInterval.nearest? (range : RoundingInterval) (quarter unit : Nat) : Option Nat :=
  let value := range.middle * quarter
  let low := value / unit
  let high := low + 1
  match range.holds quarter unit low, range.holds quarter unit high with
  | true, true =>
    let up := high * unit - value
    let down := value - low * unit
    some (if down < up || (down == up && low % 2 == 0) then low else high)
  | true, false => some low
  | false, true => some high
  | false, false => none

/-- The digits of the shortest decimal for a positive number, as a natural number, and the power of ten
of the last one. Seventeen digits always suffice; fewer are tried first, from the power of ten just above
the number on, so the last digit is never zero. -/
def shortest (mantissa : Nat) (exponent : Int) : Nat × Int :=
  let range := RoundingInterval.of mantissa exponent
  let (quarter, whole) := binaryRatio 1 (exponent - 2)
  let (numerator, denominator) := binaryRatio mantissa exponent
  let power := leadingPower numerator denominator
  let attempt (count : Nat) : Option (Nat × Int) :=
    let last : Int := power - (count - 1 : Int)
    let (scaled, unit) := scaleDown quarter whole last
    (range.nearest? scaled unit).map fun digits => (digits, last)
  ((List.range 18).findSome? attempt).getD (significant 17 numerator denominator |>.1, power - 16)

/-- Digits with a point at a power of ten and zeros where there are no digits, never an exponent. -/
def positional (digits : List Char) (last : Int) : List Char :=
  if 0 ≤ last then digits ++ List.replicate last.toNat '0'
  else
    let places := last.natAbs
    if places < digits.length then
      digits.take (digits.length - places) ++ ['.'] ++ digits.drop (digits.length - places)
    else ['0', '.'] ++ List.replicate (places - digits.length) '0' ++ digits

/-- The shortest text of a number that reads back as the same number. -/
def text (x : Float) : String :=
  let sign (negative : Bool) : String := if negative then "-" else ""
  match Binary.Parts.ofFloat x with
  | .notANumber => "NaN"
  | .infinite negative => sign negative ++ "inf"
  | .finite negative mantissa exponent =>
    if mantissa = 0 then sign negative ++ "0"
    else
      let (digits, last) := shortest mantissa exponent
      sign negative ++ String.ofList (positional (Nat.toDigits 10 digits) last)

end RayTracer.Decimal
