import Mathlib
import RayTracer.Proofs.Scene.HitGeometry

/-! Rays that run along the same line at another speed, over exact numbers. Where the direction is multiplied and the
parameters are divided by one positive number, a ray passes the same points. A sphere is met as before, since its
equation is homogeneous in the direction. A plane is met as before as well, but for one case: rays that rise by less
than a fixed amount in the space of the plane count as parallel to it, and that amount is not divided. -/

namespace RayTracer

noncomputable section

def UpperBound.rescaled (k : ℝ) : UpperBound ℝ → UpperBound ℝ
  | .below limit => .below (limit / k)
  | .unbounded => .unbounded

def Interval.rescaled (range : Interval ℝ) (k : ℝ) : Interval ℝ := ⟨range.min / k, range.max.rescaled k⟩

/-- The ray of another speed along the same line, from the same place to the same place. -/
def Ray.rescaled (ray : Ray ℝ) (k : ℝ) : Ray ℝ :=
  { ray with direction := ray.direction * k, interval := ray.interval.rescaled k }

end

variable {k : ℝ} (hk : 0 < k)

include hk in
theorem UpperBound.exceeds_rescaled (bound : UpperBound ℝ) (t : ℝ) :
    (bound.rescaled k).exceeds (t / k) = bound.exceeds t := by
  cases bound with
  | below limit =>
      rw [rescaled, exceeds, exceeds, decide_eq_decide]
      exact div_lt_div_iff_of_pos_right hk
  | unbounded => rfl

include hk in
theorem Interval.surrounds_rescaled (range : Interval ℝ) (t : ℝ) :
    (range.rescaled k).surrounds (t / k) = range.surrounds t := by
  have hMin : decide (range.min / k < t / k) = decide (range.min < t) :=
    decide_eq_decide.mpr (div_lt_div_iff_of_pos_right hk)
  rw [surrounds, rescaled, hMin, UpperBound.exceeds_rescaled hk, surrounds]

namespace Ray

variable (ray : Ray ℝ)

@[simp] theorem origin_rescaled (k : ℝ) : (ray.rescaled k).origin = ray.origin := rfl

@[simp] theorem direction_rescaled (k : ℝ) : (ray.rescaled k).direction = ray.direction * k := rfl

@[simp] theorem interval_rescaled (k : ℝ) : (ray.rescaled k).interval = ray.interval.rescaled k := rfl

include hk in
/-- A ray of another speed rises at that speed. -/
theorem rise_rescaled : |(ray.rescaled k).direction.z| = k * |ray.direction.z| := by
  have hRise : (ray.rescaled k).direction.z = ray.direction.z * k := rfl
  rw [hRise, abs_mul, abs_of_pos hk, mul_comm]

include hk in
/-- A rescaled ray passes the same points, at other parameters. -/
theorem pointAt_rescaled (t : ℝ) : (ray.rescaled k).pointAt (t / k) = ray.pointAt t := by
  have hSame (x : ℝ) : x * k * (t / k) = x * t := by field_simp
  rw [pointAt_exact, pointAt_exact]
  simp only [origin_rescaled, direction_rescaled, Vec.scale_exact, hSame]

/-- A transformation does not notice how fast a ray is. -/
theorem transform_rescaled (s : Transformation ℝ) (k : ℝ) :
    (ray.rescaled k).transform s = (ray.transform s).rescaled k := by
  rw [transform, rescaled, Transformation.applyVec_scale]
  rfl

end Ray

namespace Solid

variable (ray : Ray ℝ)

theorem sphereDiscriminant_rescaled (k : ℝ) : sphereDiscriminant (ray.rescaled k) = sphereDiscriminant ray * k ^ 2 := by
  rw [sphereDiscriminant_eq, sphereDiscriminant_eq, Ray.origin_rescaled, Ray.direction_rescaled,
    Vec.squaredNorm_scale, Vec.dot_scale, discrim, discrim]
  ring

include hk in
theorem sqrt_sphereDiscriminant_rescaled :
    √(sphereDiscriminant (ray.rescaled k)) = √(sphereDiscriminant ray) * k := by
  rw [sphereDiscriminant_rescaled, Real.sqrt_mul' _ (sq_nonneg k), Real.sqrt_sq hk.le]

include hk in
theorem nearRoot_rescaled : nearRoot (ray.rescaled k) = nearRoot ray / k := by
  rw [nearRoot_eq, nearRoot_eq, sqrt_sphereDiscriminant_rescaled hk, Ray.origin_rescaled, Ray.direction_rescaled,
    Vec.squaredNorm_scale, Vec.dot_scale]
  field_simp

include hk in
theorem farRoot_rescaled : farRoot (ray.rescaled k) = farRoot ray / k := by
  rw [farRoot_eq, farRoot_eq, sqrt_sphereDiscriminant_rescaled hk, Ray.origin_rescaled, Ray.direction_rescaled,
    Vec.squaredNorm_scale, Vec.dot_scale]
  field_simp

include hk in
/-- A rescaled ray meets the sphere at the same point. -/
theorem sphereParameter?_rescaled :
    sphereParameter? (ray.rescaled k) = (sphereParameter? ray).map (· / k) := by
  have hMissed : sphereDiscriminant (ray.rescaled k) ≤ 0 ↔ sphereDiscriminant ray ≤ 0 := by
    rw [sphereDiscriminant_rescaled, ← not_lt, mul_pos_iff_of_pos_right (pow_pos hk 2), not_lt]
  simp only [sphereParameter?_eq, hMissed, nearRoot_rescaled hk, farRoot_rescaled hk, Ray.interval_rescaled,
    Interval.surrounds_rescaled hk, apply_ite (Option.map (· / k)), Option.map_some, Option.map_none]

/-- A ray that rises too little does not meet the plane. -/
theorem planeParameter?_of_flat {ray : Ray ℝ} (hFlat : |ray.direction.z| < 1e-5) : planeParameter? ray = none :=
  if_pos hFlat

include hk in
/-- As long as both rays rise enough they meet the plane at the same point. -/
theorem planeParameter?_rescaled (hSteep : 1e-5 ≤ |ray.direction.z|) (hStillSteep : 1e-5 ≤ k * |ray.direction.z|) :
    planeParameter? (ray.rescaled k) = (planeParameter? ray).map (· / k) := by
  have hRoot : -(ray.rescaled k).origin.z / (ray.rescaled k).direction.z = -ray.origin.z / ray.direction.z / k := by
    change -ray.origin.z / (ray.direction.z * k) = _
    rw [div_mul_eq_div_div]
  simp only [planeParameter?, Scalar.abs, Ray.rise_rescaled hk, hRoot, Ray.interval_rescaled,
    Interval.surrounds_rescaled hk, if_neg hSteep.not_gt, if_neg hStillSteep.not_gt,
    apply_ite (Option.map (· / k)), Option.map_some, Option.map_none]

include hk in
/-- The side that a ray comes from does not depend on its speed. -/
theorem normalAt_rescaled (solid : Solid) (p : Point ℝ) (direction : Vec ℝ) :
    solid.normalAt p (direction * k) = solid.normalAt p direction := by
  have hSide : (solid.outward p).dot (direction * k) < 0 ↔ (solid.outward p).dot direction < 0 := by
    rw [Normal.dot_exact, Normal.dot_exact, Vec.dot_scale, ← neg_pos, ← neg_mul, mul_pos_iff_of_pos_right hk,
      neg_pos]
  simp only [normalAt_eq, side, hSide]

end Solid

namespace Shape

variable (shape : Shape ℝ) (ray : Ray ℝ)

/-- Rescaling and going over to the space of a shape can be done in either order. -/
theorem localRay_rescaled (k : ℝ) : shape.localRay (ray.rescaled k) = (shape.localRay ray).rescaled k :=
  ray.transform_rescaled shape.transformation.inverse k

include hk in
/-- A ray of another speed finds the same place, orientation and coordinates where it hits. -/
theorem hitAt_rescaled (t : ℝ) : shape.hitAt (ray.rescaled k) (t / k) =
    { shape.hitAt ray t with t := t / k, ray := ray.rescaled k } := by
  simp only [hitAt, localRay_rescaled, Ray.pointAt_rescaled hk, Ray.direction_rescaled, Solid.normalAt_rescaled hk]

/-- A ray that is nearly parallel to a plane does not meet it. -/
theorem intersect?_of_flat {shape : Shape ℝ} {ray : Ray ℝ} (hPlane : shape.solid = .plane)
    (hFlat : |(shape.localRay ray).direction.z| < 1e-5) : shape.intersect? ray = none := by
  rw [intersect?, parameter?, hPlane, Solid.parameter?, Solid.planeParameter?_of_flat hFlat, Option.map_none]

/-- Hits depend on the speed of a ray in one case only. For every positive factor, the ray whose direction is
multiplied and whose interval is divided by it meets a sphere exactly if the ray does, at the divided parameter, in
the same place, with the same normal and the same coordinates. It meets a plane likewise as long as both rays rise,
in the space of the plane, by the amount below which a ray counts as parallel. A ray that rises by less meets no
plane. -/
theorem intersect?_rescaled (shape : Shape ℝ) (ray : Ray ℝ) {k : ℝ} (hk : 0 < k) :
    let rise := |(shape.localRay ray).direction.z|
    (shape.solid = .sphere ∨ 1e-5 ≤ rise ∧ 1e-5 ≤ k * rise →
      shape.intersect? (ray.rescaled k) =
        (shape.intersect? ray).map fun hit => { hit with t := hit.t / k, ray := ray.rescaled k }) ∧
    (shape.solid = .plane → rise < 1e-5 → shape.intersect? ray = none) ∧
    (shape.solid = .plane → k * rise < 1e-5 → shape.intersect? (ray.rescaled k) = none) := by
  intro rise
  refine ⟨fun hMeets => ?_, intersect?_of_flat, fun hPlane hFlat => intersect?_of_flat hPlane ?_⟩
  · have hParameter : shape.parameter? (ray.rescaled k) = (shape.parameter? ray).map (· / k) := by
      rw [parameter?, parameter?, localRay_rescaled]
      cases hSolid : shape.solid with
      | sphere => exact Solid.sphereParameter?_rescaled hk _
      | plane =>
          rw [hSolid] at hMeets
          obtain ⟨hSteep, hStillSteep⟩ := hMeets.resolve_left (by decide)
          exact Solid.planeParameter?_rescaled hk _ hSteep hStillSteep
    rw [intersect?, intersect?, hParameter, Option.map_map, Option.map_map]
    refine congrArg (Option.map · (shape.parameter? ray)) (funext fun t => ?_)
    exact hitAt_rescaled hk shape ray t
  · rwa [localRay_rescaled, Ray.rise_rescaled hk]

/-- From inside the flattened and mirrored sphere, four times as fast. -/
theorem intersect?_rescaled_egg :
    (0 : ℝ) < 4 ∧ ∃ hit met, egg.intersect? fromCenter = some hit ∧ hit.t = 1 / 2 ∧
      egg.intersect? (fromCenter.rescaled 4) = some met ∧ met.t = 1 / 8 ∧ met.point = hit.point ∧
      met.normal = hit.normal ∧ met.uv = hit.uv := by
  have hFaster : (0 : ℝ) < 4 := by norm_num
  have hMet : egg.intersect? fromCenter = some (egg.hitAt fromCenter (1 / 2)) := by
    rw [intersect?, parameter?_egg, Option.map_some]
  have hAgain := (intersect?_rescaled egg fromCenter hFaster).1 (Or.inl rfl)
  rw [hMet, Option.map_some] at hAgain
  refine ⟨hFaster, _, _, hMet, rfl, hAgain, ?_, rfl, rfl, rfl⟩
  change (1 / 2 : ℝ) / 4 = 1 / 8
  norm_num

noncomputable def ground : Shape ℝ := ⟨.plane, .identity, .black⟩

/-- A ray straight down onto the ground. -/
noncomputable def plunge : Ray ℝ := ⟨⟨0, 0, 1⟩, ⟨0, 0, -1⟩, ⟨0, .unbounded⟩, 0⟩

theorem localRay_ground (ray : Ray ℝ) : ground.localRay ray = ray := ray.transform_identity

/-- A ray straight down onto the ground hits it, and it does not when it is slow. -/
theorem intersect?_ground_lost :
    ground.transformation.Regular ∧ plunge.direction ≠ ⟨0, 0, 0⟩ ∧ (0 : ℝ) < 1 / 2 ^ 20 ∧
      (∃ hit, ground.intersect? plunge = some hit ∧ hit.t = 1) ∧
      ground.intersect? (plunge.rescaled (1 / 2 ^ 20)) = none := by
  have hSlower : (0 : ℝ) < 1 / 2 ^ 20 := by norm_num
  have hDown : plunge.direction ≠ ⟨0, 0, 0⟩ := by simp [plunge]
  have hParameter : ground.parameter? plunge = some 1 := by
    rw [parameter?, localRay_ground, ground, Solid.parameter?, Solid.planeParameter?]
    norm_num [plunge, Scalar.abs, Interval.surrounds, UpperBound.exceeds, Scalar.belowInfinity]
  refine ⟨Transformation.regular_identity, hDown, hSlower, ⟨ground.hitAt plunge 1, ?_, rfl⟩,
    intersect?_of_flat rfl ?_⟩
  · rw [intersect?, hParameter, Option.map_some]
  · rw [localRay_ground, Ray.rise_rescaled hSlower]
    norm_num [plunge]

end Shape

end RayTracer
