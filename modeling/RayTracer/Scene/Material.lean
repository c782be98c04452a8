import RayTracer.Geometry.Ray
import RayTracer.Image.Basic
import RayTracer.Random.Pcg

/-!
What surfaces look like. A pigment is a color at every point of a surface, a reflection says how light
leaves it, and a material joins a reflection with the light that the surface emits by itself.
-/

namespace RayTracer

/-- A computation that draws random numbers and may stop at a fault. -/
abbrev Sampling (β : Type) := StateT Pcg (Except Fault) β

/-- A number of the unit interval from the generator at hand. -/
def Pcg.sampleUnit {α : Type} [Scalar α] {m : Type → Type} [Monad m] : StateT Pcg m α :=
  fun g => pure g.drawUnit

inductive Pigment (α : Type) where
  | uniform (color : Color α)
  /-- A chessboard with a number of squares along each side of the unit square. -/
  | checkered (first second : Color α) (steps : Nat)
  /-- A texture, of which the nearest pixel counts. -/
  | texture (image : Image α)
  deriving Repr

variable {α : Type} [Scalar α]

namespace Pigment

/-- The number of the square of a chessboard that a coordinate lies in. -/
def square (steps : Nat) (x : α) : Int := Scalar.truncate (Scalar.floor (x * Scalar.ofNat steps))

/-- The index of the pixel that a coordinate lies in, of the first or the last one when it lies outside.
An extent of zero has no last index. -/
def pixelIndex (extent : Nat) (x : α) : Except Fault Nat :=
  if extent = 0 then .error .differenceOverflow
  else .ok (min (Scalar.truncateNat (x * Scalar.ofNat extent)) (extent - 1))

/-- The pixel of a texture at surface coordinates; without pixels it is black. -/
def texel (image : Image α) (uv : SurfacePoint α) : Except Fault (Color α) :=
  if image.pixels.isEmpty then .ok Color.black
  else do
    let col ← pixelIndex image.width uv.u
    let row ← pixelIndex image.height uv.v
    image.get col row

def colorAt (pigment : Pigment α) (uv : SurfacePoint α) : Except Fault (Color α) :=
  match pigment with
  | .uniform color => .ok color
  | .checkered first second steps =>
    .ok (if square steps uv.u % 2 = square steps uv.v % 2 then first else second)
  | .texture image => texel image uv

end Pigment

/-- How light leaves a surface. -/
inductive Reflection (α : Type) where
  /-- Evenly in all directions. -/
  | diffuse (pigment : Pigment α) (reflectance : α)
  /-- As from a mirror; directions count as symmetric within a tolerance in radians. -/
  | specular (pigment : Pigment α) (tolerance : α)
  deriving Repr

namespace Reflection

/-- The tolerance of a mirror that states none, a tenth of a degree. -/
def defaultTolerance : α := Scalar.pi / 1800.0

omit [Scalar α] in
def pigment : Reflection α → Pigment α
  | .diffuse pigment _ => pigment
  | .specular pigment _ => pigment

def polarAngle (normal direction : Vec α) : α :=
  Scalar.acos (Scalar.clamp (-1.0) 1.0 (normal.dot direction.normalized))

/-- The part of the light from `incoming` that leaves towards `outgoing`, both pointing away from the
surface. -/
def eval (reflection : Reflection α) (normal : Normal α) (incoming outgoing : Vec α)
    (uv : SurfacePoint α) : Except Fault (Color α) :=
  match reflection with
  | .diffuse pigment reflectance => do return (← pigment.colorAt uv) * (reflectance / Scalar.pi)
  | .specular pigment tolerance =>
    let axis := normal.normalized.toVec
    if Scalar.abs (polarAngle axis incoming - polarAngle axis outgoing) < tolerance then
      pigment.colorAt uv
    else .ok Color.black

/-- The direction around a unit normal whose squared cosine is the first number and whose turn is the
second. -/
def cosineDirection (normal : Normal α) (squaredCosine turn : α) : Vec α :=
  let basis := Basis.ofNormal normal
  let cosine := Scalar.sqrt squaredCosine
  let sine := Scalar.sqrt (1.0 - squaredCosine)
  let azimuth := 2.0 * Scalar.pi * turn
  basis.first * (Scalar.cos azimuth * sine) + basis.second * (Scalar.sin azimuth * sine)
    + basis.third * cosine

/-- The mirror image of a direction, of unit length. -/
def mirrored (normal : Normal α) (incoming : Vec α) : Vec α :=
  let direction := incoming.normalized
  let axis := normal.normalized.toVec
  direction - axis * (2.0 * axis.dot direction)

/-- A ray that leaves a surface point after light arrived along `incoming`. A diffuse surface draws two
numbers, so that directions are as frequent as their cosine to the normal; a mirror draws none. -/
def scatter {m : Type → Type} [Monad m] (reflection : Reflection α) (incoming : Vec α)
    (point : Point α) (normal : Normal α) (depth : Nat) : StateT Pcg m (Ray α) :=
  match reflection with
  | .diffuse _ _ => do
    let squaredCosine ← Pcg.sampleUnit
    let turn ← Pcg.sampleUnit
    return ⟨point, cosineDirection normal squaredCosine turn, ⟨1e-3, .unbounded⟩, depth⟩
  | .specular _ _ => return ⟨point, mirrored normal incoming, ⟨1e-5, .unbounded⟩, depth⟩

end Reflection

structure Material (α : Type) where
  reflection : Reflection α
  emission : Pigment α
  deriving Repr

def Material.black : Material α :=
  ⟨.diffuse (.uniform Color.black) 1.0, .uniform Color.black⟩

/-- A surface of one pigment that reflects all that the pigment lets it and emits nothing. -/
def Material.ofPigment (pigment : Pigment α) : Material α :=
  ⟨.diffuse pigment 1.0, .uniform Color.black⟩

end RayTracer
