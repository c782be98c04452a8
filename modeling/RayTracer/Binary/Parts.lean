/-!
The fields of a binary64 number: what its bits say about sign and magnitude.
-/

namespace RayTracer.Binary

/-- A number by its fields; a finite one has the magnitude `mantissa * 2 ^ exponent`. -/
inductive Parts where
  | notANumber
  | infinite (negative : Bool)
  | finite (negative : Bool) (mantissa : Nat) (exponent : Int)
  deriving DecidableEq, Repr

/-- The fields of a word of 64 bits. Below the least exponent of normal numbers the leading bit of the
mantissa is not implied. -/
def Parts.ofBits (bits : Nat) : Parts :=
  let negative := decide (UInt64.size / 2 ≤ bits)
  let biased : Nat := (bits >>> 52) % 2048
  let fraction : Nat := bits % (1 <<< 52)
  if biased = 2047 then
    if fraction = 0 then .infinite negative else .notANumber
  else if biased = 0 then .finite negative fraction (-1074)
  else .finite negative ((1 <<< 52) + fraction) ((biased : Int) - 1075)

def Parts.ofFloat (x : Float) : Parts := .ofBits x.toBits.toNat

/-- The count nearest to a number, of two that are equally near the greater. What is negative or not a number
counts as nothing, and what lies beyond the greatest count as that one. -/
def Parts.nearestCount (greatest : Nat) : Parts → Nat
  | .notANumber => 0
  | .infinite negative => if negative then 0 else greatest
  | .finite negative mantissa exponent =>
    if negative then 0
    else if 0 ≤ exponent then min (mantissa <<< exponent.toNat) greatest
    else min ((mantissa + (1 <<< (exponent.natAbs - 1))) >>> exponent.natAbs) greatest

end RayTracer.Binary
