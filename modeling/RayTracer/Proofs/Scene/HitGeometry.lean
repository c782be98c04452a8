import Mathlib
import RayTracer.Proofs.Exact.Actions
import RayTracer.Proofs.Exact.Vectors
import RayTracer.Proofs.Scene.NearestHit

/-! Where rays hit, over exact numbers. A shape solves for the parameter in its own space and carries the
result back: the point by the matrix, the normal by the transposed inverse. The point found lies on the ray
and on the surface, and the normal stands on the surface against the ray, whatever the shape is stretched or
mirrored by. The side is chosen in the space of the shape. That it is the right one in the world as well is the
duality of normals and vectors. -/

namespace RayTracer

namespace Ray

theorem pointAt_exact (ray : Ray ℝ) (t : ℝ) :
    ray.pointAt t = ⟨ray.origin.x + ray.direction.x * t, ray.origin.y + ray.direction.y * t,
      ray.origin.z + ray.direction.z * t⟩ := rfl

/-- A moved ray runs through the moved points, at the same parameters. -/
theorem pointAt_transform {s : Transformation ℝ} (hAffine : s.forward.row3 = Row.affine) (ray : Ray ℝ) (t : ℝ) :
    (ray.transform s).pointAt t = s.applyPoint (ray.pointAt t) := by
  rw [pointAt, pointAt, transform, Transformation.applyPoint_add hAffine, Transformation.applyVec_scale]

/-- Along a ray the squared distance to the origin is a quadratic function of the parameter. -/
theorem squaredNorm_pointAt (ray : Ray ℝ) (t : ℝ) :
    (ray.pointAt t).toVec.squaredNorm = ray.direction.squaredNorm * (t * t) +
      2 * ray.origin.toVec.dot ray.direction * t + ray.origin.toVec.squaredNorm := by
  rw [pointAt_exact, Vec.squaredNorm_exact, Vec.squaredNorm_exact, Vec.squaredNorm_exact, Vec.dot_exact]
  simp only [Point.toVec]
  ring

end Ray

namespace Solid

/-- The surface of a solid, in its own space. -/
def Contains : Solid → Point ℝ → Prop
  | .sphere, p => p.x ^ 2 + p.y ^ 2 + p.z ^ 2 = 1
  | .plane, p => p.z = 0

/-- The direction across the surface at a point of it, from the center of the sphere or up from the plane. -/
def outward : Solid → Point ℝ → Normal ℝ
  | .sphere, p => ⟨p.x, p.y, p.z⟩
  | .plane, _ => ⟨0, 0, 1⟩

/-- The discriminant of the equation whose solutions are the parameters on the unit sphere. -/
noncomputable def sphereDiscriminant (ray : Ray ℝ) : ℝ :=
  discrim ray.direction.squaredNorm (2.0 * ray.origin.toVec.dot ray.direction)
    (ray.origin.toVec.squaredNorm - 1.0)

theorem sphereDiscriminant_eq (ray : Ray ℝ) :
    sphereDiscriminant ray = discrim ray.direction.squaredNorm (2 * ray.origin.toVec.dot ray.direction)
      (ray.origin.toVec.squaredNorm - 1) := by
  rw [sphereDiscriminant, Scalar.two_exact, Scalar.one_exact]

/-- The first of the two solutions. -/
noncomputable def nearRoot (ray : Ray ℝ) : ℝ :=
  (-(2.0 * ray.origin.toVec.dot ray.direction) - √(sphereDiscriminant ray)) / (2.0 * ray.direction.squaredNorm)

noncomputable def farRoot (ray : Ray ℝ) : ℝ :=
  (-(2.0 * ray.origin.toVec.dot ray.direction) + √(sphereDiscriminant ray)) / (2.0 * ray.direction.squaredNorm)

theorem nearRoot_eq (ray : Ray ℝ) : nearRoot ray =
    (-(2 * ray.origin.toVec.dot ray.direction) - √(sphereDiscriminant ray)) / (2 * ray.direction.squaredNorm) := by
  norm_num [nearRoot]

theorem farRoot_eq (ray : Ray ℝ) : farRoot ray =
    (-(2 * ray.origin.toVec.dot ray.direction) + √(sphereDiscriminant ray)) / (2 * ray.direction.squaredNorm) := by
  norm_num [farRoot]

/-- The near root is tried first, then the far one. -/
theorem sphereParameter?_eq (ray : Ray ℝ) :
    sphereParameter? ray =
      if sphereDiscriminant ray ≤ 0 then none
      else if ray.interval.surrounds (nearRoot ray) then some (nearRoot ray)
      else if ray.interval.surrounds (farRoot ray) then some (farRoot ray)
      else none := by
  have hFour : (4.0 : ℝ) = 4 := by norm_num
  simp only [sphereParameter?, nearRoot_eq, farRoot_eq, sphereDiscriminant_eq, discrim, sq, Scalar.two_exact, hFour,
    Scalar.one_exact, Scalar.zero_exact, Scalar.sqrt]

/-- A parameter of the sphere is given by the formula for the solutions of a quadratic equation. -/
theorem root_of_sphereParameter? {ray : Ray ℝ} {t : ℝ} (h : sphereParameter? ray = some t) :
    0 < sphereDiscriminant ray ∧ (t = farRoot ray ∨ t = nearRoot ray) := by
  rw [sphereParameter?_eq] at h
  split at h
  next => cases h
  next hMeets =>
      refine ⟨not_le.mp hMeets, ?_⟩
      split at h
      next => exact Or.inr (Option.some.inj h).symm
      next =>
          split at h
          next => exact Or.inl (Option.some.inj h).symm
          next => cases h

/-- Without a direction the equation has no linear term either, and its discriminant is zero. -/
theorem direction_ne_zero_of_discriminant {ray : Ray ℝ} (h : 0 < sphereDiscriminant ray) :
    ray.direction.squaredNorm ≠ 0 := by
  intro hNone
  rw [sphereDiscriminant_eq, discrim, hNone, Vec.eq_zero_of_squaredNorm hNone, Vec.dot_zero] at h
  norm_num at h

/-- A point of the line lies on the sphere where a quadratic function of its parameter vanishes. -/
theorem contains_sphere_iff (ray : Ray ℝ) (t : ℝ) :
    sphere.Contains (ray.pointAt t) ↔ ray.direction.squaredNorm * (t * t) +
      2 * ray.origin.toVec.dot ray.direction * t + (ray.origin.toVec.squaredNorm - 1) = 0 := by
  have hOn : sphere.Contains (ray.pointAt t) ↔ (ray.pointAt t).toVec.squaredNorm = 1 := by
    rw [Vec.squaredNorm_exact, ← sq, ← sq, ← sq]
    rfl
  rw [hOn, ray.squaredNorm_pointAt, ← sub_eq_zero, add_sub_assoc]

/-- Where the discriminant is positive, the formula gives all parameters on the sphere. -/
theorem contains_iff_root {ray : Ray ℝ} (h : 0 < sphereDiscriminant ray) (t : ℝ) :
    sphere.Contains (ray.pointAt t) ↔ t = farRoot ray ∨ t = nearRoot ray := by
  have hSquare := (Real.mul_self_sqrt h.le).symm
  nth_rewrite 1 [sphereDiscriminant_eq] at hSquare
  rw [contains_sphere_iff, farRoot_eq, nearRoot_eq]
  exact quadratic_eq_zero_iff (direction_ne_zero_of_discriminant h) hSquare t

/-- A parameter of the plane is one at which a ray that is not too flat has no height. -/
theorem height_of_planeParameter? {ray : Ray ℝ} {t : ℝ} (h : planeParameter? ray = some t) :
    ray.direction.z ≠ 0 ∧ t = -ray.origin.z / ray.direction.z := by
  simp only [planeParameter?, Scalar.abs] at h
  split at h
  next => cases h
  next hSteep =>
      refine ⟨fun hFlat => hSteep ?_, ?_⟩
      · rw [hFlat, abs_zero]
        norm_num
      · split at h
        next => exact (Option.some.inj h).symm
        next => cases h

/-- Where a ray hits a solid it is on its surface. -/
theorem contains_of_parameter? {solid : Solid} {ray : Ray ℝ} {t : ℝ} (h : solid.parameter? ray = some t) :
    solid.Contains (ray.pointAt t) := by
  cases solid with
  | sphere =>
      obtain ⟨hDiscriminant, hRoot⟩ := root_of_sphereParameter? h
      exact (contains_iff_root hDiscriminant t).mpr hRoot
  | plane =>
      obtain ⟨hSteep, rfl⟩ := height_of_planeParameter? h
      change ray.origin.z + ray.direction.z * (-ray.origin.z / ray.direction.z) = 0
      rw [mul_div_cancel₀ _ hSteep, add_neg_cancel]

/-- At a point of the line on the sphere, the discriminant is the square of the slope of the equation there. -/
theorem sphereDiscriminant_eq_slope_sq {ray : Ray ℝ} {t : ℝ} (h : sphere.Contains (ray.pointAt t)) :
    sphereDiscriminant ray = (2 * (outward .sphere (ray.pointAt t)).dot ray.direction) ^ 2 := by
  have hSlope : 2 * (outward .sphere (ray.pointAt t)).dot ray.direction =
      2 * ray.direction.squaredNorm * t + 2 * ray.origin.toVec.dot ray.direction := by
    rw [Vec.squaredNorm_exact, Vec.dot_exact, ray.pointAt_exact]
    simp only [outward, Normal.dot, Point.toVec]
    ring
  rw [sphereDiscriminant_eq, hSlope]
  exact discrim_eq_sq_of_quadratic_eq_zero ((contains_sphere_iff ray t).mp h)

/-- A ray does not graze the surface where it meets it. On the sphere it would meet the tangent plane there,
and the equation would have one solution only. -/
theorem dot_outward_ne_zero {solid : Solid} {ray : Ray ℝ} {t : ℝ} (h : solid.parameter? ray = some t) :
    (solid.outward (ray.pointAt t)).dot ray.direction ≠ 0 := by
  cases solid with
  | sphere =>
      intro hGrazes
      have hPositive := (root_of_sphereParameter? h).1
      rw [sphereDiscriminant_eq_slope_sq (contains_of_parameter? h), hGrazes] at hPositive
      norm_num at hPositive
  | plane =>
      have hHeight : (outward .plane (ray.pointAt t)).dot ray.direction = ray.direction.z := by
        simp only [outward, Normal.dot]
        ring
      rw [hHeight]
      exact (height_of_planeParameter? h).1

/-- The side of the surface that a direction comes from: one outside, minus one inside. -/
noncomputable def side (solid : Solid) (p : Point ℝ) (direction : Vec ℝ) : ℝ :=
  if (solid.outward p).dot direction < 0 then 1 else -1

/-- A ray comes from one side or the other. -/
theorem side_ne_zero (solid : Solid) (p : Point ℝ) (direction : Vec ℝ) : solid.side p direction ≠ 0 := by
  rw [side]
  split <;> norm_num

theorem normalAt_eq (solid : Solid) (p : Point ℝ) (direction : Vec ℝ) :
    solid.normalAt p direction = solid.outward p * solid.side p direction := by
  cases solid with
  | sphere =>
      have hNeg (n : Normal ℝ) : -n = n * (-1 : ℝ) := by
        change (⟨-n.x, -n.y, -n.z⟩ : Normal ℝ) = _
        rw [Normal.scale_exact, mul_neg_one, mul_neg_one, mul_neg_one]
      have hSame : p.toVec.dot direction = (outward .sphere p).dot direction := rfl
      simp only [normalAt, sphereNormal, Scalar.zero_exact, hSame, side]
      split
      next => rw [Normal.scale_exact, mul_one, mul_one, mul_one]; rfl
      next => rw [hNeg]; rfl
  | plane =>
      have hSame : (outward .plane p).dot direction = direction.z := by
        simp only [outward, Normal.dot]
        ring
      rw [side, hSame, Normal.scale_exact]
      simp only [normalAt, planeNormal, outward]
      norm_num

/-- A direction that does not graze the surface runs against the normal. -/
theorem dot_normalAt_neg {solid : Solid} {p : Point ℝ} {direction : Vec ℝ}
    (h : (solid.outward p).dot direction ≠ 0) : (solid.normalAt p direction).dot direction < 0 := by
  rw [normalAt_eq, Normal.scale_dot, side]
  split
  next hAgainst => rwa [mul_one]
  next hAlong => rw [mul_neg_one, neg_lt_zero]; exact lt_of_le_of_ne (not_lt.mp hAlong) h.symm

end Solid

namespace Shape

variable {shape : Shape ℝ} {ray : Ray ℝ}

/-- The place of a hit in the space of the shape. -/
theorem pointAt_localRay (hRegular : shape.transformation.Regular) (ray : Ray ℝ) (t : ℝ) :
    (shape.localRay ray).pointAt t = shape.transformation.inverse.applyPoint (ray.pointAt t) :=
  Ray.pointAt_transform hRegular.backward_affine ray t

/-- The point of a hit is on the ray. -/
theorem point_hitAt (hRegular : shape.transformation.Regular) (ray : Ray ℝ) (t : ℝ) :
    (shape.hitAt ray t).point = ray.pointAt t := by
  change shape.transformation.applyPoint ((shape.localRay ray).pointAt t) = _
  rw [pointAt_localRay hRegular]
  exact hRegular.inverse.inverse_applyPoint _

/-- In the world the normal of a hit stands to the ray as it does in the space of the shape. -/
theorem dot_normal_hitAt (shape : Shape ℝ) (ray : Ray ℝ) (t : ℝ) :
    (shape.hitAt ray t).normal.dot ray.direction =
      (shape.solid.normalAt ((shape.localRay ray).pointAt t) (shape.localRay ray).direction).dot
        (shape.localRay ray).direction :=
  shape.transformation.dot_applyNormal _ _

/-- Hits are where they should be, for every shape placed by an affine map that has an inverse. The parameter
lies strictly inside the interval of the ray and gives the point of the hit. Taken back to the space of the
shape, this point lies on the unit sphere or on the plane. The normal is the image of the direction across the
surface there under the transposed inverse, up to a factor other than zero, and runs strictly against the ray:
also inside a sphere, below a plane, and where the map mirrors or stretches unevenly. -/
theorem intersect?_onSurface {shape : Shape ℝ}
    (hInverse : shape.transformation.forward * shape.transformation.backward = Matrix.identity)
    (hAffine : shape.transformation.forward.row3 = ⟨0, 0, 0, 1⟩) {ray : Ray ℝ} {hit : Hit ℝ}
    (h : shape.intersect? ray = some hit) :
    (ray.interval.min < hit.t ∧ ray.interval.max.exceeds hit.t = true) ∧
      hit.point = ray.pointAt hit.t ∧
      shape.solid.Contains (shape.transformation.inverse.applyPoint hit.point) ∧
      (∃ factor : ℝ, factor ≠ 0 ∧ hit.normal = (shape.transformation.backward.transpose.applyVec
        (shape.solid.outward (shape.transformation.inverse.applyPoint hit.point)).toVec).toNormal * factor) ∧
      hit.normal.dot ray.direction < 0 := by
  have hRegular := Transformation.regular_of_affine hInverse hAffine
  have hInside := surrounds_of_intersect? h
  rw [Interval.surrounds, Bool.and_eq_true, decide_eq_true_eq] at hInside
  obtain ⟨t, hParameter, rfl⟩ := Option.map_eq_some_iff.mp h
  have hPoint := point_hitAt hRegular ray t
  have hLocal : shape.transformation.inverse.applyPoint (shape.hitAt ray t).point =
      (shape.localRay ray).pointAt t := by rw [hPoint, pointAt_localRay hRegular]
  have hNormal : (shape.hitAt ray t).normal =
      shape.transformation.applyNormal (shape.solid.outward ((shape.localRay ray).pointAt t)) *
        shape.solid.side ((shape.localRay ray).pointAt t) (shape.localRay ray).direction := by
    rw [← Transformation.applyNormal_scale, ← Solid.normalAt_eq]
    rfl
  have hAgainst : (shape.hitAt ray t).normal.dot ray.direction < 0 := by
    rw [dot_normal_hitAt]
    exact Solid.dot_normalAt_neg (Solid.dot_outward_ne_zero hParameter)
  rw [hLocal]
  exact ⟨hInside, hPoint, Solid.contains_of_parameter? hParameter,
    ⟨_, shape.solid.side_ne_zero _ _, hNormal⟩, hAgainst⟩

/-- A sphere that is stretched along one axis, mirrored along another and flattened along the third. -/
noncomputable def egg : Shape ℝ := ⟨.sphere, .scaling ⟨2.0, -1.0, 0.5⟩, .black⟩

/-- A ray that starts inside the egg and leaves it where it is flattened. -/
noncomputable def fromCenter : Ray ℝ := ⟨⟨0, 0, 0⟩, ⟨0, 0, 1⟩, ⟨1e-5, .unbounded⟩, 0⟩

theorem regular_egg : egg.transformation.Regular :=
  Transformation.regular_scaling (by norm_num) (by norm_num) (by norm_num)

theorem localRay_egg : egg.localRay fromCenter = ⟨⟨0, 0, 0⟩, ⟨0, 0, 2⟩, ⟨1e-5, .unbounded⟩, 0⟩ := by
  have hPlace : egg.transformation.inverse.applyPoint ⟨0, 0, 0⟩ = ⟨0, 0, 0⟩ := by
    rw [(Transformation.applyPoint_of_affine regular_egg.inverse.forward_affine _).2]
    norm_num [egg, Transformation.inverse, Transformation.scaling, Matrix.apply, Matrix.scaling,
      Matrix.identity_exact, Row.dot]
  have hDirection : egg.transformation.inverse.applyVec ⟨0, 0, 1⟩ = ⟨0, 0, 2⟩ := by
    norm_num [egg, Transformation.inverse, Transformation.scaling, Transformation.applyVec, Matrix.applyVec,
      Matrix.scaling, Matrix.identity_exact, Row.dotVec]
  rw [localRay, Ray.transform, fromCenter, hPlace, hDirection]

/-- From the center the first solution lies behind the ray and the second one is taken. -/
theorem parameter?_egg : egg.parameter? fromCenter = some (1 / 2) := by
  have hRoot : √(16 : ℝ) = 4 := by
    rw [show (16 : ℝ) = 4 ^ 2 by norm_num, Real.sqrt_sq (by norm_num)]
  rw [parameter?, localRay_egg]
  change Solid.sphereParameter? _ = _
  simp only [Solid.sphereParameter?, Vec.squaredNorm_exact, Vec.dot_exact, Point.toVec, Scalar.sqrt,
    Interval.surrounds, UpperBound.exceeds, Scalar.belowInfinity]
  norm_num [hRoot]

theorem intersect?_onSurface_egg :
    (egg.transformation.forward * egg.transformation.backward = Matrix.identity ∧
      egg.transformation.forward.row3 = ⟨0, 0, 0, 1⟩) ∧
    ∃ hit, egg.intersect? fromCenter = some hit ∧ hit.point = fromCenter.pointAt (1 / 2) ∧
      Solid.sphere.Contains (egg.transformation.inverse.applyPoint hit.point) ∧
      hit.normal.dot fromCenter.direction < 0 := by
  have hInverse := regular_egg.forward_backward
  have hAffine : egg.transformation.forward.row3 = ⟨0, 0, 0, 1⟩ := regular_egg.forward_affine
  have hMet : egg.intersect? fromCenter = some (egg.hitAt fromCenter (1 / 2)) := by
    rw [intersect?, parameter?_egg, Option.map_some]
  obtain ⟨-, hPoint, hOn, -, hAgainst⟩ := intersect?_onSurface hInverse hAffine hMet
  exact ⟨⟨hInverse, hAffine⟩, _, hMet, hPoint, hOn, hAgainst⟩

end Shape

end RayTracer
