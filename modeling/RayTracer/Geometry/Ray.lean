import RayTracer.Geometry.Transformation

/-!
Rays and the open ranges of parameters along them.
-/

namespace RayTracer

inductive UpperBound (α : Type) where
  | below (limit : α)
  | unbounded
  deriving Repr

structure Interval (α : Type) where
  min : α
  max : UpperBound α
  deriving Repr

/-- A half-line of points, of which those with a parameter inside the interval count. The depth is the
number of bounces that led to the ray. -/
structure Ray (α : Type) where
  origin : Point α
  direction : Vec α
  interval : Interval α
  depth : Nat
  deriving Repr

variable {α : Type} [Scalar α]

def UpperBound.exceeds (bound : UpperBound α) (t : α) : Bool :=
  match bound with
  | .below limit => decide (t < limit)
  | .unbounded => Scalar.belowInfinity t

def Interval.surrounds (range : Interval α) (t : α) : Bool :=
  decide (range.min < t) && range.max.exceeds t

namespace Ray

/-- The range of a ray that nothing restricts; it starts just after the origin, so that a ray leaving a
surface does not meet that surface again. -/
def defaultInterval : Interval α := ⟨1e-5, .unbounded⟩

def primary (origin : Point α) (direction : Vec α) : Ray α :=
  ⟨origin, direction, defaultInterval, 0⟩

def pointAt (ray : Ray α) (t : α) : Point α := ray.origin + ray.direction * t

/-- The image of a ray; interval and depth stay, so parameters mean the same points before and after. -/
def transform (ray : Ray α) (t : Transformation α) : Ray α :=
  { ray with origin := t.applyPoint ray.origin, direction := t.applyVec ray.direction }

/-- Whether two rays run alike; interval and depth are not compared. -/
def isClose (a b : Ray α) : Bool :=
  a.origin.isCloseWithin 1e-5 b.origin && a.direction.isCloseWithin 1e-5 b.direction

end Ray

end RayTracer
