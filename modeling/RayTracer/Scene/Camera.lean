import RayTracer.Geometry.Ray

/-!
Cameras. The screen is the rectangle that reaches from minus to plus the aspect ratio along the second
axis and from minus one to one along the third, seen along the first. Screen coordinates run over the
unit square from the bottom left corner to the top right one.
-/

namespace RayTracer

inductive Projection (α : Type) where
  | orthogonal
  /-- Seen from an eye at a distance before the screen. -/
  | perspective (distance : α)
  deriving Repr

structure Camera (α : Type) where
  projection : Projection α
  aspectRatio : α
  transformation : Transformation α
  deriving Repr

namespace Camera

variable {α : Type} [Scalar α]

/-- The ray through a point of the screen, before the camera is moved into place. -/
def localRay (camera : Camera α) (u v : α) : Ray α :=
  let y := (1.0 - 2.0 * u) * camera.aspectRatio
  let z := 2.0 * v - 1.0
  match camera.projection with
  | .orthogonal => .primary ⟨-1.0, y, z⟩ Vec.unitX
  | .perspective distance => .primary ⟨-distance, 0.0, 0.0⟩ ⟨distance, y, z⟩

def ray (camera : Camera α) (u v : α) : Ray α :=
  (camera.localRay u v).transform camera.transformation

/-- The horizontal field of view in degrees, as far as the projection has one. -/
def aperture? (camera : Camera α) : Option α :=
  match camera.projection with
  | .orthogonal => none
  | .perspective distance =>
    some (2.0 * Scalar.degrees (Scalar.atan (distance / camera.aspectRatio)))

/-- The ray through a pixel, counted from the top left one, and a position inside the pixel from its
top left corner. -/
def pixelRay (camera : Camera α) (width height : Nat) (pixel : Nat × Nat) (right down : α) : Ray α :=
  let u := (Scalar.ofNat pixel.1 + right) / Scalar.ofNat width
  let v := 1.0 - (Scalar.ofNat pixel.2 + down) / Scalar.ofNat height
  camera.ray u v

end Camera

end RayTracer
