import RayTracer.Text.Numeral

/-!
Numbers of JSON texts. They stay as they are written, so that a reader can still tell an integer from a
fraction and one zero from the other. Two binary64 numbers belong to one: the nearest, which is
`n.decimal.toFloat`, and the one that few multiplications reach, `n.toFloat?`.
-/

namespace RayTracer

/-- A number as written. -/
structure JsonNumber where
  negative : Bool
  whole : List Char
  /-- The digits after the point, if there is one. -/
  fraction : Option (List Char)
  /-- The power of ten, if one is stated. -/
  exponent : Option Int
  deriving DecidableEq, Repr

namespace JsonNumber

/-- A number is an integer when it has neither a point nor an exponent. -/
def isInteger (n : JsonNumber) : Bool := n.fraction.isNone && n.exponent.isNone

def places (n : JsonNumber) : List Char := n.fraction.getD []

def decimal (n : JsonNumber) : Text.Decimal :=
  ⟨n.negative, Text.digitsValue (n.whole ++ n.places), n.exponent.getD 0 - n.places.length⟩

/-- The count below a limit that a number states as an integer without a sign. -/
def toCount? (limit : Nat) (n : JsonNumber) : Option Nat :=
  if n.isInteger && !n.negative && n.decimal.digits < limit then some n.decimal.digits else none

/-- A number with digits appended as long as it fits in 64 bits, and the digits that are left over. -/
def appendDigits : Nat → List Char → Nat × List Char
  | head, [] => (head, [])
  | head, digit :: digits =>
    let next := head * 10 + Text.digitValue digit
    if next < UInt64.size then appendDigits next digits else (head, digit :: digits)

/-- The leading digits of a number, as far as they fit in 64 bits, and the power of ten of the last of
them. Digits of either part that do not fit are dropped; those before the point leave their place behind. -/
def leading (n : JsonNumber) : Nat × Int :=
  let (head, dropped) := appendDigits 0 n.whole
  let (digits, ignored) := appendDigits head n.places
  (digits, n.exponent.getD 0 + dropped.length - (n.places.length - ignored.length : Nat))

/-- The greatest power of ten that a single multiplication or division applies. -/
def greatestPower : Nat := 308

def powerOfTen (n : Nat) : Float := Float.ofScientific 1 false n

/-- A number times a power of ten. Every step rounds, and the result has to be finite. -/
def scale? (x : Float) (exponent : Int) : Option Float :=
  if exponent.natAbs ≤ greatestPower then
    if 0 ≤ exponent then
      let product := x * powerOfTen exponent.natAbs
      if product.isFinite then some product else none
    else some (x / powerOfTen exponent.natAbs)
  else if x == 0.0 then some x
  else if 0 ≤ exponent then none
  else scale? (x / powerOfTen greatestPower) (exponent + greatestPower)
termination_by exponent.natAbs
decreasing_by
  simp only [greatestPower] at *
  omega

def toFloat? (n : JsonNumber) : Option Float :=
  let (digits, exponent) := n.leading
  (scale? (Float.ofNat digits) exponent).map fun x => if n.negative then -x else x

end JsonNumber

end RayTracer
