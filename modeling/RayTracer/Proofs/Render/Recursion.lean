import Mathlib
import RayTracer.Proofs.Scene.NearestHit
import RayTracer.Render.PathTracer

/-! The recursion of the path tracer. How many rays may still follow each other is settled by the depth of the
ray at hand, so no number of them has to be handed on: the light along a ray is found from the light along the
rays that are scattered where it hits, one after the other. -/

namespace RayTracer

variable {α : Type} [Scalar α]

/-- The pigment and the emission where a ray hits. -/
def Hit.colors (hit : Hit α) : Except Fault (Color α × Color α) := do
  let color ← hit.material.reflection.pigment.colorAt hit.uv
  let emitted ← hit.material.emission.colorAt hit.uv
  return (color, emitted)

theorem Hit.colorAt_of_colors_eq_error {hit : Hit α} {fault : Fault} (h : hit.colors = .error fault) :
    hit.material.reflection.pigment.colorAt hit.uv = .error fault ∨
      hit.material.emission.colorAt hit.uv = .error fault := by
  unfold colors at h
  cases hPigment : hit.material.reflection.pigment.colorAt hit.uv with
  | error cause =>
      rw [hPigment] at h
      exact Or.inl (congrArg Except.error (Except.error.inj h))
  | ok color =>
      cases hEmission : hit.material.emission.colorAt hit.uv with
      | error cause =>
          rw [hPigment, hEmission] at h
          exact Or.inr (congrArg Except.error (Except.error.inj h))
      | ok emitted =>
          rw [hPigment, hEmission] at h
          cases h

namespace PathTracer

/-- Branches only follow rays that are one deeper than the ray that hit. -/
theorem branch_congr {one other : Ray α → Sampling (Path α)} {hit : Hit α}
    (h : ∀ ray, ray.depth = hit.ray.depth + 1 → one ray = other ray) :
    branch one hit = branch other hit := by
  unfold branch nextDepth
  split
  next =>
      cases hit.material.reflection with
      | diffuse pigment reflectance =>
          funext generator
          exact congrFun (h ⟨_, _, _, hit.ray.depth + 1⟩ rfl) _
      | specular pigment tolerance => exact h ⟨_, _, _, hit.ray.depth + 1⟩ rfl
  next => rfl

theorem branches_congr {one other : Ray α → Sampling (Path α)} {hit : Hit α}
    (h : branch one hit = branch other hit) (count : ℕ) : branches one hit count = branches other hit count := by
  unfold branches
  induction count with
  | zero => rfl
  | succ count ih => simp only [List.replicate_succ, List.mapM_cons, h, ih]

variable {tracer : PathTracer α} {world : World α} {ray : Ray α} {hit : Hit α}

/-- Beyond the greatest depth a path is cut. -/
theorem path_of_beyond (hDepth : tracer.maxDepth < ray.depth) : tracer.path world ray = pure (.cut ray) := by
  have hNone : tracer.maxDepth + 1 - ray.depth = 0 := by omega
  rw [path, hNone]
  rfl

/-- A ray that hits nothing ends its path. -/
theorem path_of_missed (hDepth : ray.depth ≤ tracer.maxDepth) (hSeen : world.intersect? ray = none) :
    tracer.path world ray = pure (.missed ray) := by
  have hMore : tracer.maxDepth + 1 - ray.depth = tracer.maxDepth - ray.depth + 1 := by omega
  rw [path, hMore]
  simp only [follow, hSeen]

/-- The paths of scattered rays are found as that of the ray itself. -/
theorem path_of_hit (hDepth : ray.depth ≤ tracer.maxDepth) (hSeen : world.intersect? ray = some hit) :
    tracer.path world ray = tracer.goOn (tracer.path world) hit := by
  have hMore : tracer.maxDepth + 1 - ray.depth = tracer.maxDepth - ray.depth + 1 := by omega
  have hBranch : branch (tracer.follow world (tracer.maxDepth - ray.depth)) hit =
      branch (tracer.path world) hit := by
    refine branch_congr fun scattered hNext => ?_
    have hFewer : tracer.maxDepth + 1 - scattered.depth = tracer.maxDepth - ray.depth := by
      rw [hNext, World.ray_of_intersect? hSeen]
      omega
    rw [path, hFewer]
  rw [path, hMore]
  simp only [follow, hSeen, goOn, branches_congr hBranch]

/-- A path goes on from a hit once the surface has shown its colors. -/
theorem goOn_eq (tracer : PathTracer α) (follow : Ray α → Sampling (Path α)) (hit : Hit α) :
    tracer.goOn follow hit = (do
      let (color, emitted) ← hit.colors
      match ← tracer.continuation hit.ray.depth color with
      | none => return .ended hit emitted
      | some weight =>
        let count := if 0.0 < color.maxComponent then tracer.fanOut else 0
        return .scattered hit emitted weight (← branches follow hit count)) := by
  have hColors {β : Type} (next : Color α × Color α → Sampling β) :
      ((hit.colors : Sampling (Color α × Color α)) >>= next) = (do
        let color ← hit.material.reflection.pigment.colorAt hit.uv
        let emitted ← hit.material.emission.colorAt hit.uv
        next (color, emitted)) := by
    simp only [Hit.colors, liftM_bind, liftM_pure, bind_assoc, pure_bind]
  symm
  exact hColors _

/-- The light along a ray, and the rays that the world was asked about. -/
def survey (tracer : PathTracer α) (world : World α) (ray : Ray α) : Sampling (Color α × List (Ray α)) := do
  let path ← tracer.path world ray
  return (path.light tracer.background tracer.fanOut, path.rays)

/-- A sum of light, to which a number of rays add what arrives along them. Each is scattered at the hit after
the one before it has been followed to its end. -/
def gather (tracer : PathTracer α) (world : World α) (hit : Hit α) (weight : Color α) :
    ℕ → Color α → Sampling (Color α × List (Ray α))
  | 0, sum => return (sum, [])
  | count + 1, sum => do
    let depth ← nextDepth hit.ray.depth
    let ray ← hit.material.reflection.scatter hit.ray.direction hit.point hit.normal depth
    let (light, seen) ← tracer.survey world ray
    let (total, later) ← gather tracer world hit weight count (sum + weight * light)
    return (total, seen ++ later)

/-- A survey tells the light of the ray. -/
theorem fst_survey (tracer : PathTracer α) (world : World α) (ray : Ray α) :
    tracer.radiance world ray = Prod.fst <$> tracer.survey world ray := by
  simp only [radiance, survey, map_bind, map_pure]

theorem snd_survey (tracer : PathTracer α) (world : World α) (ray : Ray α) :
    Path.rays <$> tracer.path world ray = Prod.snd <$> tracer.survey world ray := by
  simp only [survey, map_eq_pure_bind, bind_assoc, pure_bind]

/-- The light of the branches can be added up while they grow. -/
theorem addLight_branches (tracer : PathTracer α) (world : World α) (hit : Hit α) (weight : Color α)
    (count : ℕ) (sum : Color α) :
    (fun paths => (Path.addLight tracer.background tracer.fanOut weight paths sum, Path.raysOfAll paths)) <$>
      branches (tracer.path world) hit count = tracer.gather world hit weight count sum := by
  induction count generalizing sum with
  | zero => rfl
  | succ count ih =>
      simp only [branches, map_eq_pure_bind] at ih
      simp only [branches, List.replicate_succ, List.mapM_cons, branch, gather, survey, bind_assoc,
        pure_bind, map_bind, map_pure, Path.addLight, Path.raysOfAll, ← ih]

theorem survey_of_beyond (hDepth : tracer.maxDepth < ray.depth) :
    tracer.survey world ray = pure (Color.black, []) := by
  rw [survey, path_of_beyond hDepth, pure_bind, Path.light, Path.rays]

theorem survey_of_missed (hDepth : ray.depth ≤ tracer.maxDepth) (hSeen : world.intersect? ray = none) :
    tracer.survey world ray = pure (tracer.background, [ray]) := by
  rw [survey, path_of_missed hDepth hSeen, pure_bind, Path.light, Path.rays]

/-- Where a ray hits, the light is found from the light along the rays that are scattered there. -/
theorem survey_of_hit (hDepth : ray.depth ≤ tracer.maxDepth) (hSeen : world.intersect? ray = some hit) :
    tracer.survey world ray = (do
      let (color, emitted) ← hit.colors
      match ← tracer.continuation ray.depth color with
      | none => return (emitted, [ray])
      | some weight =>
        let count := if 0.0 < color.maxComponent then tracer.fanOut else 0
        let (sum, later) ← tracer.gather world hit weight count Color.black
        return (emitted + sum * (1.0 / Scalar.ofNat tracer.fanOut : α), ray :: later)) := by
  obtain rfl := World.ray_of_intersect? hSeen
  simp only [survey, path_of_hit hDepth hSeen, goOn_eq, ← addLight_branches, bind_assoc, bind_map_left]
  -- Up to the decision of chance both sides are one computation.
  congr! 4 with colors choice
  cases choice with
  | none => rfl
  | some weight => simp only [bind_assoc, pure_bind, Path.light, Path.rays]

end PathTracer

end RayTracer
