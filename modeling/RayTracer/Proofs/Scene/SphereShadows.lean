import Mathlib
import RayTracer.Proofs.Scene.SphereRoots

/-! What hides a point in a world of spheres, over exact numbers. The sight line is cut off at two parameters, and every
sphere looks for its hits in a space of its own, where lengths are not those of the world. Parameters are the same in
both spaces, though, and along the sight line they are shares of the distance. So a point is hidden exactly by the
spheres whose surface is met on the way, more than a hundredth of a unit from the observer and before the point, by a
line that is no tangent. -/

namespace RayTracer

namespace Point

/-- The line through two points. -/
def line (p q : Point ℝ) : Set (Point ℝ) := {x | ∃ share : ℝ, x = p + (q - p) * share}

def segment (p q : Point ℝ) : Set (Point ℝ) := {x | ∃ share : ℝ, (0 ≤ share ∧ share ≤ 1) ∧ x = p + (q - p) * share}

variable (p q : Point ℝ) (share : ℝ)

theorem add_sub_self (v : Vec ℝ) : p + v - p = v := by
  change (⟨p.x + v.x - p.x, p.y + v.y - p.y, p.z + v.z - p.z⟩ : Vec ℝ) = v
  simp only [add_sub_cancel_left]

/-- A share of the way is the same share of the distance. -/
theorem norm_along : (p + (q - p) * share - p).norm = (q - p).norm * |share| := by
  rw [add_sub_self, Vec.norm_scale]

end Point

namespace Shape

variable {shape : Shape ℝ} {ray : Ray ℝ}

/-- The surface of a shape in the world. -/
def surface (shape : Shape ℝ) : Set (Point ℝ) := shape.transformation.applyPoint '' {p | shape.solid.Contains p}

/-- A line is a tangent at a point where it meets the surface there and nowhere else. -/
def IsTangentAt (shape : Shape ℝ) (line : Set (Point ℝ)) (x : Point ℝ) : Prop := line ∩ shape.surface = {x}

/-- A point is on the surface when it is so in the space of the shape. -/
theorem mem_surface_iff (hRegular : shape.transformation.Regular) (x : Point ℝ) :
    x ∈ shape.surface ↔ shape.solid.Contains (shape.transformation.inverse.applyPoint x) := by
  constructor
  · rintro ⟨p, hOn, rfl⟩
    rwa [hRegular.inverse_applyPoint]
  · intro hOn
    exact ⟨_, hOn, hRegular.inverse.inverse_applyPoint x⟩

theorem pointAt_mem_surface_iff (hRegular : shape.transformation.Regular) (ray : Ray ℝ) (t : ℝ) :
    ray.pointAt t ∈ shape.surface ↔ shape.solid.Contains ((shape.localRay ray).pointAt t) := by
  rw [mem_surface_iff hRegular, pointAt_localRay hRegular]

/-- No direction is lost on the way into the space of a shape. -/
theorem direction_localRay_ne_zero (hRegular : shape.transformation.Regular)
    (hDirection : ray.direction ≠ ⟨0, 0, 0⟩) : (shape.localRay ray).direction ≠ ⟨0, 0, 0⟩ := by
  intro hNone
  have hZero : shape.transformation.applyVec ⟨0, 0, 0⟩ = ⟨0, 0, 0⟩ := by
    simp [Transformation.applyVec, Matrix.applyVec, Row.dotVec]
  apply hDirection
  calc
    ray.direction = shape.transformation.applyVec (shape.localRay ray).direction :=
      (hRegular.inverse.inverse_applyVec ray.direction).symm
    _ = ⟨0, 0, 0⟩ := by rw [hNone, hZero]

end Shape

namespace Ray

variable {ray : Ray ℝ}

/-- Different parameters mean different points. -/
theorem pointAt_injective (hDirection : ray.direction ≠ ⟨0, 0, 0⟩) : Function.Injective ray.pointAt := by
  intro s t hSame
  have hShift (r : ℝ) : (ray.pointAt r - ray.origin).dot ray.direction = ray.direction.squaredNorm * r := by
    rw [pointAt, Point.add_sub_self, Vec.scale_dot]
    rfl
  have hEqual : ray.direction.squaredNorm * s = ray.direction.squaredNorm * t := by
    rw [← hShift, ← hShift, hSame]
  exact mul_left_cancel₀ (Vec.squaredNorm_pos hDirection).ne' hEqual

/-- The line of a ray touches the sphere exactly at a point where no other parameter leads to the sphere. -/
theorem touchesSphere_iff {t : ℝ} (hOn : Solid.sphere.Contains (ray.pointAt t)) :
    ray.TouchesSphere ↔ ∀ s, Solid.sphere.Contains (ray.pointAt s) → s = t := by
  constructor
  · intro hTouches s hOther
    exact hTouches.unique hOther hOn
  · intro hOnly
    exact ⟨t, hOn, hOnly⟩

end Ray

/-- A hit of the sphere is found whenever the interval holds a parameter at which the line meets the sphere and does
not merely touch it. Of which of the two solutions that is, the interval decides. -/
theorem Solid.isSome_sphereParameter?_iff {ray : Ray ℝ} (hDirection : ray.direction ≠ ⟨0, 0, 0⟩) :
    (sphereParameter? ray).isSome = true ↔ ¬ray.TouchesSphere ∧ ∃ t, ray.interval.surrounds t = true ∧
      sphere.Contains (ray.pointAt t) := by
  constructor
  · intro hFound
    obtain ⟨t, hTaken⟩ := Option.isSome_iff_exists.mp hFound
    have hParameter : sphere.parameter? ray = some t := hTaken
    have hPositive := (root_of_sphereParameter? hTaken).1
    exact ⟨((sphereDiscriminant_pos_iff hDirection).mp hPositive).1, t, surrounds_of_parameter? hParameter,
      contains_of_parameter? hParameter⟩
  · rintro ⟨hCrosses, t, hInside, hOn⟩
    have hPositive := (sphereDiscriminant_pos_iff hDirection).mpr ⟨hCrosses, fun hMisses => hMisses t hOn⟩
    rcases sphereParameter?_cases hDirection hPositive with ⟨s, hTaken, -⟩ | ⟨-, hEmpty⟩
    · rw [hTaken, Option.isSome_some]
    · rw [Interval.surrounds, Bool.and_eq_true, decide_eq_true_eq] at hInside
      have hMem : t ∈ ray.sphereParameters := ⟨hInside, hOn⟩
      rw [hEmpty] at hMem
      exact hMem.elim

namespace Shape

variable {shape : Shape ℝ} {ray : Ray ℝ}

/-- In the world as in the space of the sphere, a tangent meets the surface at one parameter. -/
theorem isTangentAt_iff (hSphere : shape.solid = .sphere) (hRegular : shape.transformation.Regular)
    (hDirection : ray.direction ≠ ⟨0, 0, 0⟩) {t : ℝ} (hOn : ray.pointAt t ∈ shape.surface) :
    shape.IsTangentAt (Set.range ray.pointAt) (ray.pointAt t) ↔ (shape.localRay ray).TouchesSphere := by
  have hSurface (s : ℝ) : ray.pointAt s ∈ shape.surface ↔ Solid.sphere.Contains ((shape.localRay ray).pointAt s) := by
    rw [pointAt_mem_surface_iff hRegular, hSphere]
  rw [Ray.touchesSphere_iff ((hSurface t).mp hOn), IsTangentAt]
  constructor
  · intro hOnly s hOther
    have hMem : ray.pointAt s ∈ Set.range ray.pointAt ∩ shape.surface := ⟨⟨s, rfl⟩, (hSurface s).mpr hOther⟩
    rw [hOnly] at hMem
    exact Ray.pointAt_injective hDirection hMem
  · intro hOnly
    refine Set.Subset.antisymm ?_ (Set.singleton_subset_iff.mpr ⟨⟨t, rfl⟩, hOn⟩)
    rintro _ ⟨⟨s, rfl⟩, hOther⟩
    rw [hOnly s ((hSurface s).mp hOther)]
    rfl

/-- A line that meets a sphere is a tangent exactly if it runs along the surface, across the normal. -/
theorem isTangentAt_iff_dot_normal (hSphere : shape.solid = .sphere) (hRegular : shape.transformation.Regular)
    (hDirection : ray.direction ≠ ⟨0, 0, 0⟩) {t : ℝ} (hOn : ray.pointAt t ∈ shape.surface) :
    shape.IsTangentAt (Set.range ray.pointAt) (ray.pointAt t) ↔ (shape.transformation.applyNormal
      (Solid.sphere.outward (shape.transformation.inverse.applyPoint (ray.pointAt t)))).dot ray.direction = 0 := by
  have hLocalOn : Solid.sphere.Contains ((shape.localRay ray).pointAt t) := by
    rwa [pointAt_mem_surface_iff hRegular, hSphere] at hOn
  rw [isTangentAt_iff hSphere hRegular hDirection hOn, Transformation.dot_applyNormal, ← pointAt_localRay hRegular,
    ← Solid.sphereDiscriminant_eq_zero_iff (direction_localRay_ne_zero hRegular hDirection),
    Solid.sphereDiscriminant_eq_slope_sq hLocalOn]
  simp only [ne_eq, OfNat.ofNat_ne_zero, not_false_eq_true, pow_eq_zero_iff, mul_eq_zero, false_or]
  rfl

/-- A sphere blocks the rays that meet its surface inside their interval and are no tangents. -/
theorem blocks_sphere_iff (hSphere : shape.solid = .sphere) (hRegular : shape.transformation.Regular)
    (hDirection : ray.direction ≠ ⟨0, 0, 0⟩) :
    shape.blocks ray = true ↔ ∃ t, ray.interval.surrounds t = true ∧ ray.pointAt t ∈ shape.surface ∧
      ¬shape.IsTangentAt (Set.range ray.pointAt) (ray.pointAt t) := by
  rw [blocks, parameter?, hSphere]
  refine (Solid.isSome_sphereParameter?_iff (direction_localRay_ne_zero hRegular hDirection)).trans ?_
  rw [← exists_and_left]
  refine exists_congr fun t => ?_
  have hSurface : ray.pointAt t ∈ shape.surface ↔ Solid.sphere.Contains ((shape.localRay ray).pointAt t) := by
    rw [pointAt_mem_surface_iff hRegular, hSphere]
  constructor
  · rintro ⟨hCrosses, hInside, hOn⟩
    exact ⟨hInside, hSurface.mpr hOn,
      mt (isTangentAt_iff hSphere hRegular hDirection (hSurface.mpr hOn)).mp hCrosses⟩
  · rintro ⟨hInside, hOn, hCrosses⟩
    exact ⟨mt (isTangentAt_iff hSphere hRegular hDirection hOn).mpr hCrosses, hInside, hSurface.mp hOn⟩

end Shape

namespace World

variable {world : World ℝ} {point observer : Point ℝ}

/-- Parameters of a sight line are shares of the way to the point. -/
theorem pointAt_sightLine (share : ℝ) :
    (sightLine point observer).pointAt share = observer + (point - observer) * share := rfl

/-- The sight line runs along the line through both points. -/
theorem range_pointAt_sightLine : Set.range (sightLine point observer).pointAt = observer.line point :=
  Set.ext fun _ => exists_congr fun _ => eq_comm

/-- The parameters of a sight line, as lengths. -/
theorem surrounds_sightLine_iff (hDistinct : point ≠ observer) (share : ℝ) :
    (sightLine point observer).interval.surrounds share = true ↔
      0.01 < (point - observer).norm * share ∧ (point - observer).norm * share < (point - observer).norm := by
  have hLength := Vec.norm_pos (Point.sub_ne_zero hDistinct)
  simp only [sightLine, Interval.surrounds, UpperBound.exceeds, Bool.and_eq_true, decide_eq_true_eq, Scalar.one_exact,
    div_lt_iff₀' hLength, mul_lt_iff_lt_one_right hLength]

/-- In a world of spheres, however they are moved, turned, mirrored or stretched, a point is hidden exactly if the
surface of one of them has a point on the segment from the observer, farther away than a hundredth of a unit and nearer
than the point, at which the line of sight is no tangent. The observer may stand inside spheres, and each of the two
points where the line meets a surface hides by itself. -/
theorem isVisible_eq_false_iff_of_spheres (hSpheres : ∀ shape ∈ world.shapes, shape.solid = .sphere)
    (hConsistent : ∀ shape ∈ world.shapes,
      shape.transformation.forward * shape.transformation.backward = Matrix.identity ∧
        shape.transformation.forward.row3 = ⟨0, 0, 0, 1⟩) (hDistinct : point ≠ observer) :
    world.isVisible point observer = false ↔ ∃ shape ∈ world.shapes, ∃ x ∈ shape.surface ∩ observer.segment point,
      (0.01 < (x - observer).norm ∧ (x - observer).norm < (point - observer).norm) ∧
        ¬shape.IsTangentAt (observer.line point) x := by
  have hDirection : (sightLine point observer).direction ≠ ⟨0, 0, 0⟩ := Point.sub_ne_zero hDistinct
  rw [isVisible, Bool.not_eq_false', List.any_eq_true]
  refine exists_congr fun shape => and_congr_right fun hShape => ?_
  obtain ⟨hInverse, hAffine⟩ := hConsistent shape hShape
  have hRegular := Transformation.regular_of_affine hInverse hAffine
  rw [Shape.blocks_sphere_iff (hSpheres shape hShape) hRegular hDirection, range_pointAt_sightLine]
  simp only [surrounds_sightLine_iff hDistinct, pointAt_sightLine]
  have hLength := Vec.norm_pos (Point.sub_ne_zero hDistinct)
  constructor
  · rintro ⟨share, ⟨hBeyond, hBefore⟩, hOn, hCrosses⟩
    have hPositive : 0 < share := pos_of_mul_pos_right (lt_trans (by norm_num) hBeyond) hLength.le
    have hPart : share ≤ 1 := ((mul_lt_iff_lt_one_right hLength).mp hBefore).le
    refine ⟨_, ⟨hOn, share, ⟨hPositive.le, hPart⟩, rfl⟩, ?_, hCrosses⟩
    rw [Point.norm_along, abs_of_pos hPositive]
    exact ⟨hBeyond, hBefore⟩
  · rintro ⟨_, ⟨hOn, share, ⟨hNonneg, -⟩, rfl⟩, hDistance, hCrosses⟩
    rw [Point.norm_along, abs_of_nonneg hNonneg] at hDistance
    exact ⟨share, hDistance, hOn, hCrosses⟩

/-- The egg reaches half a unit up and down. -/
theorem mem_surface_egg_iff (z : ℝ) : (⟨0, 0, z⟩ : Point ℝ) ∈ Shape.egg.surface ↔ z = 1 / 2 ∨ z = -(1 / 2) := by
  have hBack : Shape.egg.transformation.inverse.applyPoint ⟨0, 0, z⟩ = ⟨0, 0, 2 * z⟩ := by
    rw [(Transformation.applyPoint_of_affine Shape.regular_egg.inverse.forward_affine _).2]
    norm_num [Shape.egg, Transformation.inverse, Transformation.scaling, Matrix.apply, Matrix.scaling,
      Matrix.identity_exact, Row.dot]
  have hSquare : (0 : ℝ) ^ 2 + 0 ^ 2 + (2 * z) ^ 2 = 1 ↔ z ^ 2 = (1 / 2) ^ 2 := by
    constructor <;> intro h <;> linarith
  rw [Shape.mem_surface_iff Shape.regular_egg, hBack, ← sq_eq_sq_iff_eq_or_eq_neg]
  exact hSquare

/-- From the center of the egg, a point above it is hidden, and the point at its top is not. -/
theorem isVisible_eq_false_iff_of_spheres_egg :
    ((∀ shape ∈ [Shape.egg], shape.solid = .sphere) ∧
      (∀ shape ∈ [Shape.egg], shape.transformation.forward * shape.transformation.backward = Matrix.identity ∧
        shape.transformation.forward.row3 = ⟨0, 0, 0, 1⟩) ∧
      (⟨0, 0, 1⟩ : Point ℝ) ≠ ⟨0, 0, 0⟩ ∧ (⟨0, 0, 1 / 2⟩ : Point ℝ) ≠ ⟨0, 0, 0⟩) ∧
    (⟨[Shape.egg], []⟩ : World ℝ).isVisible ⟨0, 0, 1⟩ ⟨0, 0, 0⟩ = false ∧
    (⟨[Shape.egg], []⟩ : World ℝ).isVisible ⟨0, 0, 1 / 2⟩ ⟨0, 0, 0⟩ = true := by
  have hSpheres : ∀ shape ∈ [Shape.egg], shape.solid = .sphere := List.forall_mem_singleton.mpr rfl
  have hConsistent : ∀ shape ∈ [Shape.egg],
      shape.transformation.forward * shape.transformation.backward = Matrix.identity ∧
        shape.transformation.forward.row3 = ⟨0, 0, 0, 1⟩ :=
    List.forall_mem_singleton.mpr ⟨Shape.regular_egg.forward_backward, Shape.regular_egg.forward_affine⟩
  have hAbove : (⟨0, 0, 1⟩ : Point ℝ) ≠ ⟨0, 0, 0⟩ := by simp
  have hTop : (⟨0, 0, 1 / 2⟩ : Point ℝ) ≠ ⟨0, 0, 0⟩ := by simp
  have hUp (height share : ℝ) : (⟨0, 0, 0⟩ : Point ℝ) + ((⟨0, 0, height⟩ : Point ℝ) - (⟨0, 0, 0⟩ : Point ℝ)) * share =
      ⟨0, 0, height * share⟩ := by
    change (⟨0 + (0 - 0) * share, 0 + (0 - 0) * share, 0 + (height - 0) * share⟩ : Point ℝ) = _
    simp
  have hLength (height : ℝ) : ((⟨0, 0, height⟩ : Point ℝ) - (⟨0, 0, 0⟩ : Point ℝ)).norm = |height| := by
    change √((0 - 0) * (0 - 0) + (0 - 0) * (0 - 0) + (height - 0) * (height - 0)) = _
    simp [Real.sqrt_mul_self_eq_abs]
  refine ⟨⟨hSpheres, hConsistent, hAbove, hTop⟩, ?_, ?_⟩
  · refine (isVisible_eq_false_iff_of_spheres hSpheres hConsistent hAbove).mpr
      ⟨Shape.egg, List.mem_singleton_self _, ⟨0, 0, 1 / 2⟩, ⟨(mem_surface_egg_iff _).mpr (Or.inl rfl), 1 / 2, ?_, ?_⟩,
        ?_, fun hTangent => ?_⟩
    · norm_num
    · rw [hUp, one_mul]
    · rw [hLength, hLength]
      norm_num [abs_of_pos]
    · -- The line leaves the egg at the bottom as well.
      have hBottom : (⟨0, 0, -(1 / 2)⟩ : Point ℝ) ∈ (⟨0, 0, 0⟩ : Point ℝ).line ⟨0, 0, 1⟩ ∩ Shape.egg.surface :=
        ⟨⟨-(1 / 2), by rw [hUp, one_mul]⟩, (mem_surface_egg_iff _).mpr (Or.inr rfl)⟩
      rw [hTangent, Set.mem_singleton_iff, Point.mk.injEq] at hBottom
      norm_num at hBottom
  · rw [← Bool.not_eq_false, isVisible_eq_false_iff_of_spheres hSpheres hConsistent hTop]
    rintro ⟨shape, hShape, x, ⟨hOn, share, ⟨hNonneg, -⟩, rfl⟩, ⟨-, hNearer⟩, -⟩
    obtain rfl := List.mem_singleton.mp hShape
    rw [hUp] at hOn hNearer
    rw [hLength, hLength] at hNearer
    rcases (mem_surface_egg_iff _).mp hOn with hSame | hBelow
    · rw [hSame] at hNearer
      exact lt_irrefl _ hNearer
    · linarith

end World

end RayTracer
