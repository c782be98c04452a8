import RayTracer.Render.PathTracer

/-!
The four ways to color a ray: whether it hits anything, what the surface looks like without light, how
point lights light it, and path tracing. Only the last one draws random numbers.
-/

namespace RayTracer

inductive Renderer (α : Type) where
  | onOff (background color : Color α)
  | flat (background : Color α)
  | pointLight (background ambient : Color α)
  | pathTracing (tracer : PathTracer α)
  deriving Repr

namespace Renderer

variable {α : Type} [Scalar α]

def defaultAmbient : Color α := ⟨0.1, 0.1, 0.1⟩

/-- A path tracer, which has to scatter at least one ray at every hit. -/
def pathTracer (background : Color α) (fanOut maxDepth rouletteDepth : Nat) :
    Except Fault (Renderer α) :=
  if fanOut = 0 then .error .noScatteredRays
  else .ok (.pathTracing ⟨background, fanOut, maxDepth, rouletteDepth⟩)

/-- What one light adds to a hit; nothing if a shape hides it. -/
def lightAt (world : World α) (ray : Ray α) (hit : Hit α) (light : PointLight α) :
    Except Fault (Option (Color α)) := do
  if world.isVisible light.position hit.point then
    let toLight := light.position - hit.point
    let distance := toLight.norm
    let incoming := toLight / distance
    let cosine := Scalar.larger (cosineBetween incoming hit.normal) 0.0
    let reflected ← hit.material.reflection.eval hit.normal incoming (-ray.direction) hit.uv
    return some (reflected * light.color * (cosine * light.fading distance))
  else return none

def addLights (world : World α) (ray : Ray α) (hit : Hit α) :
    List (PointLight α) → Color α → Except Fault (Color α)
  | [], sum => .ok sum
  | light :: lights, sum => do
    match ← lightAt world ray hit light with
    | none => addLights world ray hit lights sum
    | some color => addLights world ray hit lights (sum + color)

def directLight (world : World α) (ambient : Color α) (ray : Ray α) (hit : Hit α) :
    Except Fault (Color α) := do
  let emitted ← hit.material.emission.colorAt hit.uv
  addLights world ray hit world.lights (ambient + emitted)

def flatColor (hit : Hit α) : Except Fault (Color α) := do
  let color ← hit.material.reflection.pigment.colorAt hit.uv
  let emitted ← hit.material.emission.colorAt hit.uv
  return color + emitted

def radiance (renderer : Renderer α) (world : World α) (ray : Ray α) : Sampling (Color α) :=
  match renderer with
  | .onOff background color =>
    return if (world.intersect? ray).isSome then color else background
  | .flat background =>
    match world.intersect? ray with
    | none => return background
    | some hit => StateT.lift (flatColor hit)
  | .pointLight background ambient =>
    match world.intersect? ray with
    | none => return background
    | some hit => StateT.lift (directLight world ambient ray hit)
  | .pathTracing tracer => tracer.radiance world ray

end Renderer

end RayTracer
