import RayTracer.Binary.Parts

/-!
Exact decimal rounding. The value of a binary number is a ratio of natural numbers, so its digits are
found by division and the last one is rounded by comparing remainders; a half goes to the even neighbour.
-/

namespace RayTracer.Decimal

/-- A quotient to the nearest natural number, halves to the even one. -/
def roundQuotient (numerator denominator : Nat) : Nat :=
  let quotient := numerator / denominator
  let twice := 2 * (numerator % denominator)
  if twice < denominator then quotient
  else if denominator < twice then quotient + 1
  else quotient + quotient % 2

/-- The ratio `mantissa * 2 ^ exponent`, as numerator and denominator. -/
def binaryRatio (mantissa : Nat) (exponent : Int) : Nat × Nat :=
  if 0 ≤ exponent then (mantissa <<< exponent.toNat, 1) else (mantissa, 1 <<< exponent.natAbs)

def powerOfTen (n : Nat) : Nat := Nat.pow 10 n

def digitCount (n : Nat) : Nat := (Nat.toDigits 10 n).length

/-- The power of ten of the first digit of a positive ratio. -/
def leadingPower (numerator denominator : Nat) : Int :=
  if denominator ≤ numerator then (digitCount (numerator / denominator) : Int) - 1
  else -(digitCount ((denominator - 1) / numerator) : Int)

/-- A ratio divided by a power of ten, as numerator and denominator. -/
def scaleDown (numerator denominator : Nat) (power : Int) : Nat × Nat :=
  if 0 ≤ power then (numerator, denominator * powerOfTen power.toNat)
  else (numerator * powerOfTen power.natAbs, denominator)

/-- A positive ratio rounded to a number of significant digits: the digits, as a number of that many
digits, and the power of ten of the first. -/
def significant (count : Nat) (numerator denominator : Nat) : Nat × Int :=
  let power := leadingPower numerator denominator
  let (n, d) := scaleDown numerator denominator (power - (count - 1 : Int))
  let rounded := roundQuotient n d
  if rounded = powerOfTen count then (powerOfTen (count - 1), power + 1) else (rounded, power)

/-- A number in scientific notation: the digits before and after the point, and the exponent. -/
structure Scientific where
  negative : Bool
  digits : List Char
  exponent : Int
  deriving Repr

/-- A number written with its significant digits, or the name of what has none. -/
inductive Figures where
  | number (value : Scientific)
  | infinite (negative : Bool)
  | notANumber
  deriving Repr

/-- A binary64 number rounded to a number of significant digits; zero has that many zeros. -/
def toSignificant (count : Nat) (x : Float) : Figures :=
  match Binary.Parts.ofFloat x with
  | .notANumber => .notANumber
  | .infinite negative => .infinite negative
  | .finite negative mantissa exponent =>
    if mantissa = 0 then .number ⟨negative, List.replicate count '0', 0⟩
    else
      let (numerator, denominator) := binaryRatio mantissa exponent
      let (digits, power) := significant count numerator denominator
      .number ⟨negative, Nat.toDigits 10 digits, power⟩

end RayTracer.Decimal
