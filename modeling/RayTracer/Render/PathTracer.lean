import RayTracer.Render.Path

/-!
Path tracing. The light along a ray is what the surface it hits emits plus the average of what arrives
along scattered rays, weighted by the pigment. Paths end at a depth limit, and from a given depth on also
at random, with the survivors weighted up so that the average stays.
-/

namespace RayTracer

structure PathTracer (α : Type) where
  background : Color α
  /-- Rays scattered at every hit. -/
  fanOut : Nat
  maxDepth : Nat
  /-- The depth from which on paths end at random. -/
  rouletteDepth : Nat
  deriving Repr

namespace PathTracer

variable {α : Type} [Scalar α]

def depthLimit : Nat := 4294967295

/-- The depth of a ray scattered by one of a depth. -/
def nextDepth (depth : Nat) : Except Fault Nat :=
  if depth < depthLimit then .ok (depth + 1) else .error .depthOverflow

/-- The probability that a path ends at a surface, given its brightest channel. -/
def endingProbability (brightness : α) : α := Scalar.larger (1.0 - brightness) 0.05

def survivorWeight (ending : α) : α := 1.0 / (1.0 - ending)

/-- The pigment with which a path goes on from a hit, or nothing if it ends there. Before the roulette
depth every path goes on as it is, and no number is drawn. -/
def continuation (tracer : PathTracer α) (depth : Nat) (color : Color α) :
    Sampling (Option (Color α)) := do
  if depth < tracer.rouletteDepth then return some color
  else
    let ending := endingProbability color.maxComponent
    let drawn ← Pcg.sampleUnit
    if ending < drawn then return some (color * survivorWeight ending) else return none

/-- The path of a ray scattered at a hit. -/
def branch (follow : Ray α → Sampling (Path α)) (hit : Hit α) : Sampling (Path α) := do
  let depth ← nextDepth hit.ray.depth
  follow (← hit.material.reflection.scatter hit.ray.direction hit.point hit.normal depth)

/-- The paths of a number of rays scattered at a hit, one after the other. -/
def branches (follow : Ray α → Sampling (Path α)) (hit : Hit α) (count : Nat) :
    Sampling (List (Path α)) :=
  (List.replicate count hit).mapM (branch follow)

/-- The path that begins with a hit, given how scattered rays are followed. Nothing is scattered where the
pigment is black. -/
def goOn (tracer : PathTracer α) (follow : Ray α → Sampling (Path α)) (hit : Hit α) :
    Sampling (Path α) := do
  let color ← hit.material.reflection.pigment.colorAt hit.uv
  let emitted ← hit.material.emission.colorAt hit.uv
  match ← tracer.continuation hit.ray.depth color with
  | none => return .ended hit emitted
  | some weight =>
    let count := if 0.0 < color.maxComponent then tracer.fanOut else 0
    return .scattered hit emitted weight (← branches follow hit count)

/-- The path of a ray with which at most a number of rays follow each other. -/
def follow (tracer : PathTracer α) (world : World α) : Nat → Ray α → Sampling (Path α)
  | 0, ray => return .cut ray
  | remaining + 1, ray =>
    match world.intersect? ray with
    | none => return .missed ray
    | some hit => tracer.goOn (follow tracer world remaining) hit

/-- The path of a ray. One beyond the depth limit of the tracer is not followed. -/
def path (tracer : PathTracer α) (world : World α) (ray : Ray α) : Sampling (Path α) :=
  tracer.follow world (tracer.maxDepth + 1 - ray.depth) ray

def radiance (tracer : PathTracer α) (world : World α) (ray : Ray α) : Sampling (Color α) := do
  return (← tracer.path world ray).light tracer.background tracer.fanOut

end PathTracer

end RayTracer
