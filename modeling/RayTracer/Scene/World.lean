import RayTracer.Scene.Shape

/-!
Worlds: shapes and point lights. A ray sees the nearest shape it meets, and a point is visible where no
shape lies between.
-/

namespace RayTracer

/-- A light without extent. A positive radius makes it fade with the squared distance. -/
structure PointLight (α : Type) where
  position : Point α
  color : Color α
  radius : α
  deriving Repr

/-- Shapes in the order in which they are tried, and lights. -/
structure World (α : Type) where
  shapes : List (Shape α)
  lights : List (PointLight α)
  deriving Repr

variable {α : Type} [Scalar α]

/-- The factor of a light's color at a distance. -/
def PointLight.fading (light : PointLight α) (distance : α) : α :=
  if 0.0 < light.radius then
    let ratio := light.radius / distance
    ratio * ratio
  else 1.0

namespace World

omit [Scalar α] in
def empty : World α := ⟨[], []⟩

omit [Scalar α] in
def addShape (world : World α) (shape : Shape α) : World α :=
  { world with shapes := world.shapes ++ [shape] }

omit [Scalar α] in
def addLight (world : World α) (light : PointLight α) : World α :=
  { world with lights := world.lights ++ [light] }

/-- Of two hits the nearer, the earlier one when neither is nearer. -/
def nearer (best : Option (Hit α)) (candidate : Hit α) : Option (Hit α) :=
  match best with
  | none => some candidate
  | some hit => if candidate.t < hit.t then some candidate else best

def nearestHit? (shapes : List (Shape α)) (ray : Ray α) : Option (Hit α) :=
  (shapes.filterMap (·.intersect? ray)).foldl nearer none

/-- What a ray sees, with a normal of unit length. -/
def intersect? (world : World α) (ray : Ray α) : Option (Hit α) :=
  (nearestHit? world.shapes ray).map fun hit => { hit with normal := hit.normal.normalized }

/-- The ray from an observer to a point. It leaves out a hundredth of a unit of length at the observer
and ends just before the point. -/
def sightLine (point observer : Point α) : Ray α :=
  let direction := point - observer
  ⟨observer, direction, ⟨1e-2 / direction.norm, .below 1.0⟩, 0⟩

def isVisible (world : World α) (point observer : Point α) : Bool :=
  !world.shapes.any (·.blocks (sightLine point observer))

end World

end RayTracer
