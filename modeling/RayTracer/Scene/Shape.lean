import RayTracer.Scene.Material

/-!
Shapes that rays can hit. A shape is a solid of its own space, the unit sphere or the plane through the
first two axes, together with the transformation from there to the world. A ray is met in the space of
the solid, where it has the same parameters.
-/

namespace RayTracer

inductive Solid where
  | sphere
  | plane
  deriving DecidableEq, Repr

structure Shape (α : Type) where
  solid : Solid
  transformation : Transformation α
  material : Material α
  deriving Repr

/-- Where and how a ray meets a shape. The normal opposes the ray and has any length. -/
structure Hit (α : Type) where
  point : Point α
  normal : Normal α
  uv : SurfacePoint α
  t : α
  ray : Ray α
  material : Material α
  deriving Repr

variable {α : Type} [Scalar α]

namespace Hit

/-- Whether two hits agree in place, orientation and ray; materials are not compared. -/
def isClose (a b : Hit α) : Bool :=
  a.point.isClose b.point && a.normal.isClose b.normal && a.uv.isClose b.uv
    && Scalar.isClose 1e-5 a.t b.t && a.ray.isClose b.ray

end Hit

namespace Solid

/-- The first parameter inside the interval at which a ray meets the unit sphere. A ray that only
touches it misses. -/
def sphereParameter? (ray : Ray α) : Option α :=
  let origin := ray.origin.toVec
  let a := ray.direction.squaredNorm
  let b := 2.0 * origin.dot ray.direction
  let c := origin.squaredNorm - 1.0
  let discriminant := b * b - 4.0 * a * c
  if discriminant ≤ 0.0 then none
  else
    let root := Scalar.sqrt discriminant
    let near := (-b - root) / (2.0 * a)
    let far := (-b + root) / (2.0 * a)
    if ray.interval.surrounds near then some near
    else if ray.interval.surrounds far then some far
    else none

/-- The parameter inside the interval at which a ray meets the plane. A ray that rises too little misses. -/
def planeParameter? (ray : Ray α) : Option α :=
  if Scalar.abs ray.direction.z < 1e-5 then none
  else
    let t := -ray.origin.z / ray.direction.z
    if ray.interval.surrounds t then some t else none

def parameter? : Solid → Ray α → Option α
  | .sphere => sphereParameter?
  | .plane => planeParameter?

/-- The normal at a point of the unit sphere, on the side that a direction comes from. -/
def sphereNormal (p : Point α) (direction : Vec α) : Normal α :=
  let outward : Normal α := ⟨p.x, p.y, p.z⟩
  if p.toVec.dot direction < 0.0 then outward else -outward

def planeNormal (direction : Vec α) : Normal α :=
  ⟨0.0, 0.0, if direction.z < 0.0 then 1.0 else -1.0⟩

def normalAt : Solid → Point α → Vec α → Normal α
  | .sphere, p, direction => sphereNormal p direction
  | .plane, _, direction => planeNormal direction

/-- Longitude from the first axis and colatitude from the third, as parts of a full and of a half turn. -/
def sphereCoordinates (p : Point α) : SurfacePoint α :=
  let u := Scalar.atan2 p.y p.x / (2.0 * Scalar.pi)
  ⟨if 0.0 ≤ u then u else u + 1.0, Scalar.acos (Scalar.clamp (-1.0) 1.0 p.z) / Scalar.pi⟩

/-- The position inside the unit square of the plane. -/
def planeCoordinates (p : Point α) : SurfacePoint α :=
  ⟨p.x - Scalar.floor p.x, p.y - Scalar.floor p.y⟩

def coordinatesAt : Solid → Point α → SurfacePoint α
  | .sphere => sphereCoordinates
  | .plane => planeCoordinates

end Solid

namespace Shape

/-- A ray of the world as the solid of the shape sees it. -/
def localRay (shape : Shape α) (ray : Ray α) : Ray α :=
  ray.transform shape.transformation.inverse

def parameter? (shape : Shape α) (ray : Ray α) : Option α :=
  shape.solid.parameter? (shape.localRay ray)

def hitAt (shape : Shape α) (ray : Ray α) (t : α) : Hit α :=
  let seen := shape.localRay ray
  let p := seen.pointAt t
  { point := shape.transformation.applyPoint p
    normal := shape.transformation.applyNormal (shape.solid.normalAt p seen.direction)
    uv := shape.solid.coordinatesAt p
    t := t
    ray := ray
    material := shape.material }

def intersect? (shape : Shape α) (ray : Ray α) : Option (Hit α) :=
  (shape.parameter? ray).map (shape.hitAt ray)

def blocks (shape : Shape α) (ray : Ray α) : Bool := (shape.parameter? ray).isSome

end Shape

end RayTracer
