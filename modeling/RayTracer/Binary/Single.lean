import RayTracer.Binary.Double
import RayTracer.Binary.Parts
import RayTracer.Decimal.Rounded

/-!
Between binary64 numbers and the words of binary32 ones. Narrowing rounds to the nearest binary32 number,
halves to the even one, beyond the largest to infinity; widening is exact. What is not a number becomes
quiet and keeps its sign and the leading bits of its payload.
-/

namespace RayTracer.Binary

/-- The magnitude bits of infinity in binary32, the largest that stand for a number. -/
def singleInfinity : Nat := 255 <<< 23

/-- The magnitude bits of the binary32 number nearest to `mantissa * 2 ^ exponent`. Units in the last
place are counted from the least subnormal on, so a mantissa that rounds up to the next power of two
carries into the exponent by itself. -/
def narrowMagnitude (mantissa : Nat) (exponent : Int) : Nat :=
  if mantissa = 0 then 0
  else
    let last : Int := max (exponent + (mantissa.log2 : Int) - 23) (-149)
    let rounded :=
      if last ≤ exponent then mantissa <<< (exponent - last).toNat
      else Decimal.roundQuotient mantissa (1 <<< (last - exponent).toNat)
    min (((last + 149).toNat <<< 23) + rounded) singleInfinity

def withSign (negative : Bool) (magnitude : Nat) : UInt32 :=
  UInt32.ofNat (if negative then UInt32.size / 2 + magnitude else magnitude)

/-- The magnitude bits of the quiet binary32 not-a-number with the payload of a binary64 one. -/
def narrowPayload (bits : Nat) : Nat := singleInfinity + (1 <<< 22) + (bits >>> 29) % (1 <<< 22)

def narrow (x : Double) : UInt32 :=
  let bits := x.bits.toNat
  match Parts.ofBits bits with
  | .notANumber => withSign (UInt64.size / 2 ≤ bits) (narrowPayload bits)
  | .infinite negative => withSign negative singleInfinity
  | .finite negative mantissa exponent => withSign negative (narrowMagnitude mantissa exponent)

/-- The bits of a positive binary64 number `mantissa * 2 ^ exponent` of at most 53 significant bits. -/
def normalBits (mantissa : Nat) (exponent : Int) : Nat :=
  let top := mantissa.log2
  ((exponent + top + 1023).toNat <<< 52) + ((mantissa - (1 <<< top)) <<< (52 - top))

/-- The bits of the binary64 number with the magnitude that a binary32 word states. -/
def widenMagnitude (magnitude : Nat) : Nat :=
  let biased : Nat := magnitude >>> 23
  let fraction : Nat := magnitude % (1 <<< 23)
  if biased = 255 then
    if fraction = 0 then 2047 <<< 52
    else (2047 <<< 52) + (1 <<< 51) + ((fraction % (1 <<< 22)) <<< 29)
  else if biased = 0 then
    if fraction = 0 then 0 else normalBits fraction (-149)
  else normalBits ((1 <<< 23) + fraction) ((biased : Int) - 150)

def widen (word : UInt32) : Double :=
  let negative := decide (UInt32.size / 2 ≤ word.toNat)
  let magnitude := widenMagnitude (word.toNat % (UInt32.size / 2))
  ⟨UInt64.ofNat (if negative then UInt64.size / 2 + magnitude else magnitude)⟩

end RayTracer.Binary
