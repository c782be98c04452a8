import RayTracer.Geometry.Vector

/-!
Affine transformations, kept as a matrix and its inverse side by side. Every constructor builds both and
every composition multiplies both, so inverting is an exchange. Points, vectors and normals are mapped by
different rules: a point takes part in the translation, a vector does not, and a normal is mapped by the
transposed inverse, which keeps it perpendicular to what the vectors of the surface become.
-/

namespace RayTracer

/-- A quadruple of numbers: a row of a matrix, or a point with its weight. -/
structure Row (α : Type) where
  x : α
  y : α
  z : α
  w : α
  deriving Repr

structure Matrix (α : Type) where
  row0 : Row α
  row1 : Row α
  row2 : Row α
  row3 : Row α
  deriving Repr

variable {α : Type} [Scalar α]

namespace Row

def dot (a b : Row α) : α := a.x * b.x + a.y * b.y + a.z * b.z + a.w * b.w

/-- The product with a vector; the fourth entry is left out. -/
def dotVec (a : Row α) (v : Vec α) : α := a.x * v.x + a.y * v.y + a.z * v.z

/-- Whether all entries differ by at most a tolerance; not-a-number never does. -/
def isWithin (tolerance : α) (a b : Row α) : Bool :=
  let close (x y : α) : Bool := decide (Scalar.abs (x - y) ≤ tolerance)
  close a.x b.x && close a.y b.y && close a.z b.z && close a.w b.w

end Row

namespace Matrix

omit [Scalar α] in
def transpose (m : Matrix α) : Matrix α :=
  { row0 := ⟨m.row0.x, m.row1.x, m.row2.x, m.row3.x⟩
    row1 := ⟨m.row0.y, m.row1.y, m.row2.y, m.row3.y⟩
    row2 := ⟨m.row0.z, m.row1.z, m.row2.z, m.row3.z⟩
    row3 := ⟨m.row0.w, m.row1.w, m.row2.w, m.row3.w⟩ }

def identity : Matrix α :=
  { row0 := ⟨1.0, 0.0, 0.0, 0.0⟩
    row1 := ⟨0.0, 1.0, 0.0, 0.0⟩
    row2 := ⟨0.0, 0.0, 1.0, 0.0⟩
    row3 := ⟨0.0, 0.0, 0.0, 1.0⟩ }

def apply (m : Matrix α) (v : Row α) : Row α :=
  ⟨m.row0.dot v, m.row1.dot v, m.row2.dot v, m.row3.dot v⟩

/-- The image of a vector under the upper left three by three part. -/
def applyVec (m : Matrix α) (v : Vec α) : Vec α :=
  ⟨m.row0.dotVec v, m.row1.dotVec v, m.row2.dotVec v⟩

instance : Mul (Matrix α) where
  mul a b :=
    let columns := b.transpose
    { row0 := ⟨a.row0.dot columns.row0, a.row0.dot columns.row1,
        a.row0.dot columns.row2, a.row0.dot columns.row3⟩
      row1 := ⟨a.row1.dot columns.row0, a.row1.dot columns.row1,
        a.row1.dot columns.row2, a.row1.dot columns.row3⟩
      row2 := ⟨a.row2.dot columns.row0, a.row2.dot columns.row1,
        a.row2.dot columns.row2, a.row2.dot columns.row3⟩
      row3 := ⟨a.row3.dot columns.row0, a.row3.dot columns.row1,
        a.row3.dot columns.row2, a.row3.dot columns.row3⟩ }

def isWithin (tolerance : α) (a b : Matrix α) : Bool :=
  a.row0.isWithin tolerance b.row0 && a.row1.isWithin tolerance b.row1
    && a.row2.isWithin tolerance b.row2 && a.row3.isWithin tolerance b.row3

def translation (offset : Vec α) : Matrix α :=
  { identity with
    row0 := ⟨1.0, 0.0, 0.0, offset.x⟩
    row1 := ⟨0.0, 1.0, 0.0, offset.y⟩
    row2 := ⟨0.0, 0.0, 1.0, offset.z⟩ }

def scaling (factors : Vec α) : Matrix α :=
  { identity with
    row0 := ⟨factors.x, 0.0, 0.0, 0.0⟩
    row1 := ⟨0.0, factors.y, 0.0, 0.0⟩
    row2 := ⟨0.0, 0.0, factors.z, 0.0⟩ }

/-- The matrix of a rotation around the first axis, by an angle in radians. -/
def rotationX (angle : α) : Matrix α :=
  let s := Scalar.sin angle
  let c := Scalar.cos angle
  { identity with
    row1 := ⟨0.0, c, -s, 0.0⟩
    row2 := ⟨0.0, s, c, 0.0⟩ }

def rotationY (angle : α) : Matrix α :=
  let s := Scalar.sin angle
  let c := Scalar.cos angle
  { identity with
    row0 := ⟨c, 0.0, s, 0.0⟩
    row2 := ⟨-s, 0.0, c, 0.0⟩ }

def rotationZ (angle : α) : Matrix α :=
  let s := Scalar.sin angle
  let c := Scalar.cos angle
  { identity with
    row0 := ⟨c, -s, 0.0, 0.0⟩
    row1 := ⟨s, c, 0.0, 0.0⟩ }

end Matrix

/-- A matrix with the matrix of the inverse map. That the two are inverse to each other is what the
constructors below achieve; a transformation given by its matrices is taken as it is. -/
structure Transformation (α : Type) where
  forward : Matrix α
  backward : Matrix α
  deriving Repr

namespace Transformation

def identity : Transformation α := ⟨Matrix.identity, Matrix.identity⟩

def translation (offset : Vec α) : Transformation α :=
  ⟨Matrix.translation offset, Matrix.translation (-offset)⟩

/-- Scaling along the axes. A zero factor has no inverse and leaves an infinite one. -/
def scaling (factors : Vec α) : Transformation α :=
  ⟨Matrix.scaling factors, Matrix.scaling ⟨1.0 / factors.x, 1.0 / factors.y, 1.0 / factors.z⟩⟩

/-- Rotations by an angle in degrees, positive by the right-hand rule. -/
def rotationX (angle : α) : Transformation α :=
  ⟨Matrix.rotationX (Scalar.radians angle), Matrix.rotationX (-Scalar.radians angle)⟩

@[inherit_doc rotationX] def rotationY (angle : α) : Transformation α :=
  ⟨Matrix.rotationY (Scalar.radians angle), Matrix.rotationY (-Scalar.radians angle)⟩

@[inherit_doc rotationX] def rotationZ (angle : α) : Transformation α :=
  ⟨Matrix.rotationZ (Scalar.radians angle), Matrix.rotationZ (-Scalar.radians angle)⟩

omit [Scalar α] in
def inverse (t : Transformation α) : Transformation α := ⟨t.backward, t.forward⟩

/-- The composition that applies the right factor first; the inverses multiply in reverse. -/
instance : Mul (Transformation α) where
  mul a b := ⟨a.forward * b.forward, b.backward * a.backward⟩

def applyVec (t : Transformation α) (v : Vec α) : Vec α := t.forward.applyVec v

/-- The image of a point. Only a matrix with an unusual last row gives a weight other than one, by
which the image is then divided. -/
def applyPoint (t : Transformation α) (p : Point α) : Point α :=
  let image := t.forward.apply ⟨p.x, p.y, p.z, 1.0⟩
  let point : Point α := ⟨image.x, image.y, image.z⟩
  if Scalar.same image.w 1.0 then point else point * (1.0 / image.w)

def applyNormal (t : Transformation α) (n : Normal α) : Normal α :=
  (t.backward.transpose.applyVec n.toVec).toNormal

/-- Whether the product of the two matrices is the identity, up to the default tolerance. -/
def isConsistent (t : Transformation α) : Bool :=
  (t.forward * t.backward).isWithin Scalar.defaultTolerance Matrix.identity

def isClose (a b : Transformation α) : Bool :=
  a.forward.isWithin Scalar.defaultTolerance b.forward
    && a.backward.isWithin Scalar.defaultTolerance b.backward

end Transformation

/-- One step of a chain of transformations; angles are in degrees. -/
inductive TransformStep (α : Type) where
  | identity
  | translation (offset : Vec α)
  | scaling (factors : Vec α)
  | rotationX (angle : α)
  | rotationY (angle : α)
  | rotationZ (angle : α)
  deriving Repr

def TransformStep.toTransformation : TransformStep α → Transformation α
  | .identity => .identity
  | .translation offset => .translation offset
  | .scaling factors => .scaling factors
  | .rotationX angle => .rotationX angle
  | .rotationY angle => .rotationY angle
  | .rotationZ angle => .rotationZ angle

/-- The composition of transformations from left to right, so that the first is the outermost. -/
def Transformation.ofList (factors : List (Transformation α)) : Transformation α :=
  factors.foldl (· * ·) .identity

def Transformation.ofSteps (steps : List (TransformStep α)) : Transformation α :=
  .ofList (steps.map TransformStep.toTransformation)

end RayTracer
