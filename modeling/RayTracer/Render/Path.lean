import RayTracer.Scene.World

/-!
Paths of light. A path is the tree of what happened to a ray and to the rays that were scattered where it
hit. All random numbers have been drawn when the tree is there, so the light that arrives, the rays that
the world was asked about and the number of draws can be read off it.
-/

namespace RayTracer

inductive Path (α : Type) where
  /-- A ray beyond the depth limit, about which the world is not asked. -/
  | cut (ray : Ray α)
  | missed (ray : Ray α)
  /-- A hit where the path ended at random. -/
  | ended (hit : Hit α) (emitted : Color α)
  /-- A hit where the path went on. What arrives along the branches is weighted. -/
  | scattered (hit : Hit α) (emitted weight : Color α) (branches : List (Path α))

namespace Path

variable {α : Type}

def ray : Path α → Ray α
  | .cut ray => ray
  | .missed ray => ray
  | .ended hit _ => hit.ray
  | .scattered hit _ _ _ => hit.ray

mutual

/-- The light that arrives along a path: what the first hit emits and the average of a number of rays
scattered there. -/
def light [Scalar α] (background : Color α) (fanOut : Nat) : Path α → Color α
  | .cut _ => Color.black
  | .missed _ => background
  | .ended _ emitted => emitted
  | .scattered _ emitted weight branches =>
    emitted + addLight background fanOut weight branches Color.black
      * (1.0 / Scalar.ofNat fanOut : α)

/-- A sum of light to which branches add theirs, weighted and one after the other. -/
def addLight [Scalar α] (background : Color α) (fanOut : Nat) (weight : Color α) :
    List (Path α) → Color α → Color α
  | [], sum => sum
  | branch :: rest, sum =>
    addLight background fanOut weight rest (sum + weight * light background fanOut branch)

end

mutual

/-- The rays that the world was asked about, in order. -/
def rays : Path α → List (Ray α)
  | .cut _ => []
  | .missed ray => [ray]
  | .ended hit _ => [hit.ray]
  | .scattered hit _ _ branches => hit.ray :: raysOfAll branches

@[inherit_doc rays] def raysOfAll : List (Path α) → List (Ray α)
  | [] => []
  | branch :: rest => rays branch ++ raysOfAll rest

end

mutual

/-- The hits of a path that satisfy a condition, each as often as it says; it is told how many rays were
scattered there. -/
def countHits (weigh : Hit α → Nat → Nat) : Path α → Nat
  | .cut _ => 0
  | .missed _ => 0
  | .ended hit _ => weigh hit 0
  | .scattered hit _ _ branches => weigh hit branches.length + countHitsOfAll weigh branches

@[inherit_doc countHits] def countHitsOfAll (weigh : Hit α → Nat → Nat) : List (Path α) → Nat
  | [] => 0
  | branch :: rest => countHits weigh branch + countHitsOfAll weigh rest

end

/-- How often it was left to chance whether the path ends: at every hit from a depth on. -/
def chances (rouletteDepth : Nat) (path : Path α) : Nat :=
  path.countHits fun hit _ => if rouletteDepth ≤ hit.ray.depth then 1 else 0

def diffuseRays (path : Path α) : Nat :=
  path.countHits fun hit branches =>
    match hit.material.reflection with
    | .diffuse _ _ => branches
    | .specular _ _ => 0

end Path

end RayTracer
