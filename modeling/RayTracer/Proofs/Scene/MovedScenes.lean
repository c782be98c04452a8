import Mathlib
import RayTracer.Proofs.Exact.Actions
import RayTracer.Proofs.Scene.NearestHit
import RayTracer.Scene.Camera

/-! Scenes moved as a whole. A shape looks at rays from its own space, so a shape and a ray that are moved
together see each other as before: the same solid is met at the same parameter. Which shape is the nearest is
decided by these parameters alone. -/

namespace RayTracer

namespace World

variable {α : Type} [Scalar α]

/-- The shapes that a ray meets, with the parameters at which it does. -/
def encounters (shapes : List (Shape α)) (ray : Ray α) : List (Shape α × α) :=
  shapes.filterMap fun shape => (shape.parameter? ray).map (shape, ·)

/-- The shape that a ray sees, with its parameter. -/
def encounter? (world : World α) (ray : Ray α) : Option (Shape α × α) :=
  (encounters world.shapes ray).foldl (leastBy Prod.snd) none

/-- What is seen of a shape, with a normal of unit length. -/
def sight (ray : Ray α) (encounter : Shape α × α) : Hit α :=
  let hit := encounter.1.hitAt ray encounter.2
  { hit with normal := hit.normal.normalized }

/-- A ray sees the hit of the shape that it encounters. -/
theorem intersect?_eq_encounter? (world : World α) (ray : Ray α) :
    world.intersect? ray = (world.encounter? ray).map (sight ray) := by
  have hHits : world.shapes.filterMap (·.intersect? ray) =
      (encounters world.shapes ray).map fun encounter => encounter.1.hitAt ray encounter.2 := by
    rw [encounters, List.map_filterMap]
    refine congrArg (List.filterMap · world.shapes) (funext fun shape => ?_)
    rw [Option.map_map]
    rfl
  have hNearest : nearestHit? world.shapes ray =
      (world.encounter? ray).map fun encounter => encounter.1.hitAt ray encounter.2 := by
    rw [nearestHit?_eq_foldl, hHits]
    exact foldl_leastBy_map (fun _ => rfl) _
  rw [intersect?, hNearest, Option.map_map]
  rfl

theorem of_encounter? {world : World α} {ray : Ray α} {shape : Shape α} {t : α}
    (h : world.encounter? ray = some (shape, t)) : shape ∈ world.shapes ∧ shape.parameter? ray = some t := by
  rcases mem_of_foldl_leastBy h with hNone | hMem
  · cases hNone
  · obtain ⟨met, hShape, hMet⟩ := List.mem_filterMap.mp hMem
    obtain ⟨_, hParameter, hPair⟩ := Option.map_eq_some_iff.mp hMet
    cases hPair
    exact ⟨hShape, hParameter⟩

end World

noncomputable section

def Shape.moved (shape : Shape ℝ) (s : Transformation ℝ) : Shape ℝ :=
  { shape with transformation := s * shape.transformation }

/-- A world with all its shapes moved. -/
def World.moved (world : World ℝ) (s : Transformation ℝ) : World ℝ :=
  { world with shapes := world.shapes.map (·.moved s) }

def Camera.moved (camera : Camera ℝ) (s : Transformation ℝ) : Camera ℝ :=
  { camera with transformation := s * camera.transformation }

end

variable {s : Transformation ℝ}

namespace Shape

variable (shape : Shape ℝ) (ray : Ray ℝ)

/-- In its own space a shape does not notice that it has been moved together with the ray. -/
theorem localRay_moved (hs : s.Regular) :
    (shape.moved s).localRay (ray.transform s) = shape.localRay ray := by
  simp only [localRay, moved, Ray.transform, hs.inverse_mul_applyPoint, hs.inverse_mul_applyVec]

/-- A moved ray meets a moved shape at the same parameter. -/
theorem parameter?_moved (hs : s.Regular) :
    (shape.moved s).parameter? (ray.transform s) = shape.parameter? ray := by
  rw [parameter?, localRay_moved shape ray hs]
  rfl

theorem uv_hitAt_moved (hs : s.Regular) (t : ℝ) :
    ((shape.moved s).hitAt (ray.transform s) t).uv = (shape.hitAt ray t).uv := by
  simp only [hitAt, localRay_moved shape ray hs]
  rfl

/-- The point of the hit has moved with the ray and the shape. -/
theorem point_hitAt_moved (hs : s.Regular) (hAffine : shape.transformation.forward.row3 = Row.affine)
    (t : ℝ) :
    ((shape.moved s).hitAt (ray.transform s) t).point = s.applyPoint (shape.hitAt ray t).point := by
  simp only [hitAt, localRay_moved shape ray hs]
  exact Transformation.applyPoint_mul hAffine _

theorem normal_hitAt_moved (hs : s.Regular) (t : ℝ) :
    ((shape.moved s).hitAt (ray.transform s) t).normal = s.applyNormal (shape.hitAt ray t).normal := by
  simp only [hitAt, localRay_moved shape ray hs]
  exact Transformation.applyNormal_mul hs.backward_affine _

end Shape

namespace World

variable (world : World ℝ) (ray : Ray ℝ)

/-- The moved ray encounters the moved shape, at the same parameter. -/
theorem encounter?_moved (hs : s.Regular) :
    (world.moved s).encounter? (ray.transform s) =
      (world.encounter? ray).map (Prod.map (·.moved s) id) := by
  have hEncounters : encounters (world.moved s).shapes (ray.transform s) =
      (encounters world.shapes ray).map (Prod.map (·.moved s) id) := by
    rw [encounters, encounters, moved, List.filterMap_map, List.map_filterMap]
    refine congrArg (List.filterMap · world.shapes) (funext fun shape => ?_)
    rw [Function.comp_apply, Shape.parameter?_moved shape ray hs, Option.map_map]
    rfl
  rw [encounter?, hEncounters]
  exact foldl_leastBy_map (fun _ => rfl) _

end World

/-- The rays of a moved camera are those of the camera, moved. -/
theorem Camera.ray_moved (camera : Camera ℝ)
    (hAffine : camera.transformation.forward.row3 = Row.affine) (u v : ℝ) :
    (camera.moved s).ray u v = (camera.ray u v).transform s := by
  have hLocal : (camera.moved s).localRay u v = camera.localRay u v := rfl
  rw [ray, ray, hLocal]
  simp only [Ray.transform, moved, Transformation.applyPoint_mul hAffine, Transformation.applyVec_mul hAffine]

end RayTracer
