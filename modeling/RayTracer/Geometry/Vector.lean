import RayTracer.Fault
import RayTracer.Scalar

/-!
Vectors, points and normals. The three share their components and differ in meaning: a vector is a free
direction, a point a position, and a normal an orientation, which a transformation maps by a rule of its
own. Only the operations that make sense between them are defined.
-/

namespace RayTracer

structure Vec (α : Type) where
  x : α
  y : α
  z : α
  deriving Repr

structure Point (α : Type) where
  x : α
  y : α
  z : α
  deriving Repr

/-- A surface orientation, not necessarily of unit length. -/
structure Normal (α : Type) where
  x : α
  y : α
  z : α
  deriving Repr

structure SurfacePoint (α : Type) where
  u : α
  v : α
  deriving Repr

variable {α : Type}

/-- The component of a triple at an index, counted from zero. -/
def componentOf (kind : TripleKind) (x y z : α) : Nat → Except Fault α
  | 0 => .ok x
  | 1 => .ok y
  | 2 => .ok z
  | index => .error (.componentOutOfRange kind index)

section Operations

variable [Scalar α]

instance : Add (Vec α) where add a b := ⟨a.x + b.x, a.y + b.y, a.z + b.z⟩
instance : Sub (Vec α) where sub a b := ⟨a.x - b.x, a.y - b.y, a.z - b.z⟩
instance : Neg (Vec α) where neg a := ⟨-a.x, -a.y, -a.z⟩
instance : HMul (Vec α) α (Vec α) where hMul a k := ⟨a.x * k, a.y * k, a.z * k⟩
instance : HDiv (Vec α) α (Vec α) where hDiv a k := ⟨a.x / k, a.y / k, a.z / k⟩

instance : HAdd (Point α) (Vec α) (Point α) where hAdd p v := ⟨p.x + v.x, p.y + v.y, p.z + v.z⟩
instance : HSub (Point α) (Vec α) (Point α) where hSub p v := ⟨p.x - v.x, p.y - v.y, p.z - v.z⟩
instance : HSub (Point α) (Point α) (Vec α) where hSub p q := ⟨p.x - q.x, p.y - q.y, p.z - q.z⟩
instance : HMul (Point α) α (Point α) where hMul p k := ⟨p.x * k, p.y * k, p.z * k⟩

instance : Neg (Normal α) where neg n := ⟨-n.x, -n.y, -n.z⟩
instance : HMul (Normal α) α (Normal α) where hMul n k := ⟨n.x * k, n.y * k, n.z * k⟩

end Operations

namespace Vec

def component (v : Vec α) (index : Nat) : Except Fault α :=
  componentOf .vector v.x v.y v.z index

def toNormal (v : Vec α) : Normal α := ⟨v.x, v.y, v.z⟩

variable [Scalar α]

def unitX : Vec α := ⟨1.0, 0.0, 0.0⟩

def dot (a b : Vec α) : α := a.x * b.x + a.y * b.y + a.z * b.z

def cross (a b : Vec α) : Vec α :=
  ⟨a.y * b.z - a.z * b.y, a.z * b.x - a.x * b.z, a.x * b.y - a.y * b.x⟩

def squaredNorm (v : Vec α) : α := v.dot v

def norm (v : Vec α) : α := Scalar.sqrt v.squaredNorm

/-- The vector of unit length in the same direction; the zero vector has none and gives what dividing
by zero gives. -/
def normalized (v : Vec α) : Vec α := v / v.norm

def isCloseWithin (tolerance : α) (a b : Vec α) : Bool :=
  Scalar.isClose tolerance a.x b.x && Scalar.isClose tolerance a.y b.y
    && Scalar.isClose tolerance a.z b.z

def isClose (a b : Vec α) : Bool := isCloseWithin Scalar.defaultTolerance a b

end Vec

namespace Point

def component (p : Point α) (index : Nat) : Except Fault α :=
  componentOf .point p.x p.y p.z index

def toVec (p : Point α) : Vec α := ⟨p.x, p.y, p.z⟩

variable [Scalar α]

def isCloseWithin (tolerance : α) (a b : Point α) : Bool :=
  Scalar.isClose tolerance a.x b.x && Scalar.isClose tolerance a.y b.y
    && Scalar.isClose tolerance a.z b.z

def isClose (a b : Point α) : Bool := isCloseWithin Scalar.defaultTolerance a b

end Point

namespace Normal

def component (n : Normal α) (index : Nat) : Except Fault α :=
  componentOf .normal n.x n.y n.z index

def toVec (n : Normal α) : Vec α := ⟨n.x, n.y, n.z⟩

variable [Scalar α]

def dot (n : Normal α) (v : Vec α) : α := n.x * v.x + n.y * v.y + n.z * v.z

def squaredNorm (n : Normal α) : α := n.x * n.x + n.y * n.y + n.z * n.z

def norm (n : Normal α) : α := Scalar.sqrt n.squaredNorm

def normalized (n : Normal α) : Normal α :=
  let length := n.norm
  ⟨n.x / length, n.y / length, n.z / length⟩

def isCloseWithin (tolerance : α) (a b : Normal α) : Bool :=
  Scalar.isClose tolerance a.x b.x && Scalar.isClose tolerance a.y b.y
    && Scalar.isClose tolerance a.z b.z

def isClose (a b : Normal α) : Bool := isCloseWithin Scalar.defaultTolerance a b

end Normal

def SurfacePoint.isClose [Scalar α] (a b : SurfacePoint α) : Bool :=
  Scalar.isClose Scalar.defaultTolerance a.u b.u && Scalar.isClose Scalar.defaultTolerance a.v b.v

/-- The cosine of the angle between a vector and a normal of any lengths. -/
def cosineBetween [Scalar α] (v : Vec α) (n : Normal α) : α :=
  v.normalized.dot n.normalized.toVec

structure Basis (α : Type) where
  first : Vec α
  second : Vec α
  third : Vec α
  deriving Repr

/-- The orthonormal right-handed basis whose third axis is a normal of unit length. Instead of a case
for each hemisphere it uses the sign of the third component, which keeps the divisor away from zero. -/
def Basis.ofNormal [Scalar α] (n : Normal α) : Basis α :=
  let sign := Scalar.unitSign n.z
  let a := -1.0 / (sign + n.z)
  let b := n.x * n.y * a
  { first := ⟨1.0 + sign * n.x * n.x * a, sign * b, -sign * n.x⟩
    second := ⟨b, sign + n.y * n.y * a, -n.y⟩
    third := n.toVec }

end RayTracer
