import RayTracer.Scalar

/-!
Binary64 numbers by their bits. They calculate as `Float` does; beyond that, what is not a number keeps its
sign and its payload on the way through a calculation, as files show them.
-/

namespace RayTracer

structure Double where
  bits : UInt64
  deriving DecidableEq, Repr

namespace Double

def signBit : UInt64 := 0x8000000000000000

/-- The bit that is set in every not-a-number that a calculation gives. -/
def quietBit : UInt64 := 0x0008000000000000

/-- The bits of positive infinity, the greatest that stand for a number. -/
def infinityBits : UInt64 := 0x7ff0000000000000

def toFloat (x : Double) : Float := Float.ofBits x.bits

def magnitudeBits (x : Double) : UInt64 := x.bits &&& ~~~signBit

def isNaN (x : Double) : Bool := decide (infinityBits < x.magnitudeBits)

def quiet (x : Double) : Double := ⟨x.bits ||| quietBit⟩

/-- What a calculation with numbers gives that has no result. -/
def invalid : Double := ⟨signBit ||| infinityBits ||| quietBit⟩

/-- The result of a calculation. One that is not a number is that of the first operand that is none. -/
def ofResult (operands : List Double) (x : Float) : Double :=
  if x.isNaN then
    match operands.find? isNaN with
    | some operand => operand.quiet
    | none => invalid
  else ⟨x.toBits⟩

def ofFloat (x : Float) : Double := ofResult [] x

def unary (f : Float → Float) (x : Double) : Double := ofResult [x] (f x.toFloat)

def binary (f : Float → Float → Float) (x y : Double) : Double :=
  ofResult [x, y] (f x.toFloat y.toFloat)

def neg (x : Double) : Double := ⟨x.bits ^^^ signBit⟩

def abs (x : Double) : Double := ⟨x.magnitudeBits⟩

instance : Add Double := ⟨binary (· + ·)⟩
instance : Sub Double := ⟨binary (· - ·)⟩
instance : Mul Double := ⟨binary (· * ·)⟩
instance : Div Double := ⟨binary (· / ·)⟩
instance : Neg Double := ⟨neg⟩
instance : LT Double := ⟨fun x y => x.toFloat < y.toFloat⟩
instance : LE Double := ⟨fun x y => x.toFloat ≤ y.toFloat⟩
instance : OfScientific Double := ⟨fun digits negative exponent =>
  ofFloat (OfScientific.ofScientific digits negative exponent)⟩

instance : DecidableLT Double := fun x y => inferInstanceAs (Decidable (x.toFloat < y.toFloat))
instance : DecidableLE Double := fun x y => inferInstanceAs (Decidable (x.toFloat ≤ y.toFloat))

end Double

instance : Scalar Double where
  decLt := inferInstance
  decLe := inferInstance
  same := fun x y => Scalar.same x.toFloat y.toFloat
  ofNat := fun n => .ofFloat (Scalar.ofNat n)
  pi := .ofFloat Scalar.pi
  abs := Double.abs
  sqrt := Double.unary Scalar.sqrt
  sin := Double.unary Scalar.sin
  cos := Double.unary Scalar.cos
  acos := Double.unary Scalar.acos
  atan := Double.unary Scalar.atan
  atan2 := Double.binary Scalar.atan2
  pow := Double.binary Scalar.pow
  log10 := Double.unary Scalar.log10
  floor := Double.unary Scalar.floor
  larger := fun x y => if x.isNaN then y else if y.isNaN then x else if x < y then y else x
  smaller := fun x y => if x.isNaN then y else if y.isNaN then x else if y < x then y else x
  unitSign := fun x => .ofFloat (if x.bits < Double.signBit then 1.0 else -1.0)
  belowInfinity := fun x => Scalar.belowInfinity x.toFloat
  truncate := fun x => Scalar.truncate x.toFloat
  truncateNat := fun x => Scalar.truncateNat x.toFloat
  truncateByte := fun x => Scalar.truncateByte x.toFloat
  totalLe := fun x y => decide (orderKey x.bits ≤ orderKey y.bits)

end RayTracer
