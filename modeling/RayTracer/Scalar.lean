/-!
The numbers that images are computed with. Every formula of the library is written once over `Scalar`,
so the same definitions run on binary64 numbers and can be read over exact ones. A `Scalar` promises
operations only, no laws: binary64 arithmetic is neither associative nor free of not-a-number.
-/

namespace RayTracer

/-- The operations that geometry, color and sampling are written with. -/
class Scalar (α : Type) extends Add α, Sub α, Mul α, Div α, Neg α, LT α, LE α, OfScientific α where
  decLt : DecidableLT α
  decLe : DecidableLE α
  /-- Equality of values: in binary64 the two zeros are the same and not-a-number differs from itself. -/
  same : α → α → Bool
  /-- The nearest number to a count. -/
  ofNat : Nat → α
  pi : α
  abs : α → α
  sqrt : α → α
  sin : α → α
  cos : α → α
  acos : α → α
  atan : α → α
  /-- The angle of the point whose ordinate comes first and whose abscissa comes second. -/
  atan2 : α → α → α
  pow : α → α → α
  log10 : α → α
  /-- The greatest whole number that is not greater. -/
  floor : α → α
  /-- The larger operand, or the other one when one is not a number. -/
  larger : α → α → α
  /-- The smaller operand, or the other one when one is not a number. -/
  smaller : α → α → α
  /-- One with the sign of the operand, the sign of a zero included. -/
  unitSign : α → α
  /-- Whether the number lies below positive infinity. -/
  belowInfinity : α → Bool
  /-- The whole part, towards zero, kept within the signed 64-bit integers. -/
  truncate : α → Int
  /-- The whole part, towards zero, kept within the unsigned 64-bit integers. -/
  truncateNat : α → Nat
  /-- The whole part, towards zero, kept within the bytes. -/
  truncateByte : α → UInt8
  /-- An order that ranks every pair of numbers, not-a-number included. -/
  totalLe : α → α → Bool

attribute [reducible, instance] Scalar.decLt Scalar.decLe

namespace Scalar

variable {α : Type} [Scalar α]

/-- Whether two numbers differ by less than a tolerance. -/
@[inline] def isClose (tolerance a b : α) : Bool :=
  decide (Scalar.abs (a - b) < tolerance)

/-- The tolerance of comparisons that name none. -/
@[inline] def defaultTolerance : α := 1e-6

/-- The nearest number between two bounds; not-a-number stays. -/
@[inline] def clamp (low high x : α) : α :=
  let raised := if x < low then low else x
  if high < raised then high else raised

/-- Degrees to radians, by one multiplication. -/
@[inline] def radians (degrees : α) : α := degrees * (pi / 180.0)

/-- Radians to degrees, by one multiplication. -/
@[inline] def degrees (radians : α) : α := radians * (180.0 / pi)

end Scalar

/-- The bits of a number as a key of the total order: numbers of either sign from the lowest to the
highest, negative zero before zero. -/
def orderKey (bits : UInt64) : Nat :=
  if bits.toNat < UInt64.size / 2 then UInt64.size / 2 + bits.toNat else UInt64.size - 1 - bits.toNat

instance : Scalar Float where
  decLt := fun a b => inferInstanceAs (Decidable (a < b))
  decLe := fun a b => inferInstanceAs (Decidable (a ≤ b))
  same := fun a b => a == b
  ofNat := Float.ofNat
  pi := 3.141592653589793
  abs := Float.abs
  sqrt := Float.sqrt
  sin := Float.sin
  cos := Float.cos
  acos := Float.acos
  atan := Float.atan
  atan2 := Float.atan2
  pow := Float.pow
  log10 := Float.log10
  floor := Float.floor
  larger := fun a b => if a.isNaN then b else if b.isNaN then a else if a < b then b else a
  smaller := fun a b => if a.isNaN then b else if b.isNaN then a else if b < a then b else a
  unitSign := fun x => if x.toBits < 0x8000000000000000 then 1.0 else -1.0
  belowInfinity := fun x => decide (x < Float.ofBits 0x7ff0000000000000)
  truncate := fun x => x.toInt64.toInt
  truncateNat := fun x => x.toUInt64.toNat
  truncateByte := Float.toUInt8
  totalLe := fun a b => decide (orderKey a.toBits ≤ orderKey b.toBits)

end RayTracer
