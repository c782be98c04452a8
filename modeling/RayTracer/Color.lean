import RayTracer.Scalar

/-!
Linear colors: radiance or reflectance in three channels, not limited to the displayable range.
-/

namespace RayTracer

structure Color (α : Type) where
  r : α
  g : α
  b : α
  deriving Repr

def Color.map {α β : Type} (f : α → β) (c : Color α) : Color β := ⟨f c.r, f c.g, f c.b⟩

variable {α : Type} [Scalar α]

namespace Color

def black : Color α := ⟨0.0, 0.0, 0.0⟩

def white : Color α := ⟨1.0, 1.0, 1.0⟩

instance : Add (Color α) where add a b := ⟨a.r + b.r, a.g + b.g, a.b + b.b⟩
instance : Sub (Color α) where sub a b := ⟨a.r - b.r, a.g - b.g, a.b - b.b⟩

/-- Channel by channel, as when light is filtered by a surface. -/
instance : Mul (Color α) where mul a b := ⟨a.r * b.r, a.g * b.g, a.b * b.b⟩

instance : HMul (Color α) α (Color α) where hMul c k := ⟨c.r * k, c.g * k, c.b * k⟩

def maxComponent (c : Color α) : α := Scalar.larger (Scalar.larger c.r c.g) c.b

/-- The midpoint between the brightest and the darkest channel. -/
def luminosity (c : Color α) : α :=
  (c.maxComponent + Scalar.smaller (Scalar.smaller c.r c.g) c.b) / 2.0

def isCloseWithin (tolerance : α) (a b : Color α) : Bool :=
  Scalar.isClose tolerance a.r b.r && Scalar.isClose tolerance a.g b.g
    && Scalar.isClose tolerance a.b b.b

def isClose (a b : Color α) : Bool := isCloseWithin 1e-5 a b

/-- The linear value of a byte of the standard display encoding: a straight piece near black, a power
above it. -/
def linearOfByte (byte : UInt8) : α :=
  let v : α := Scalar.ofNat byte.toNat / 255.0
  if v ≤ 0.04045 then v / 12.92 else Scalar.pow ((v + 0.055) / 1.055) 2.4

end Color

end RayTracer
