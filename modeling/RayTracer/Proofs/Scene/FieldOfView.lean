import Mathlib
import RayTracer.Proofs.Exact.Angles
import RayTracer.Proofs.Exact.Transformations
import RayTracer.Scene.Camera

/-! The horizontal field of view of a perspective camera, over exact numbers. It is the angle between the rays through
the middles of the left and of the right edge of the screen, which the line of sight halves. Half of it has the aspect
ratio over the distance as its tangent. What the camera reports is twice the angle with the inverse tangent, which is
the other acute angle of the same triangle. So the two add up to half a turn, and one grows where the other shrinks. -/

namespace RayTracer

noncomputable section

namespace Camera

/-- A camera in perspective that has not been moved. -/
def facing (distance aspectRatio : ℝ) : Camera ℝ := ⟨.perspective distance, aspectRatio, .identity⟩

/-- The angle in degrees between the rays through the middles of the left and of the right edge of the screen. -/
def fieldOfView (camera : Camera ℝ) : ℝ :=
  Scalar.degrees ((camera.ray 0 0.5).direction.angle (camera.ray 1 0.5).direction)

end Camera

end

theorem Scalar.degrees_exact (angle : ℝ) : Scalar.degrees angle = angle * (180 / Real.pi) := by
  have hHalfTurn : (180.0 : ℝ) = 180 := by norm_num
  rw [degrees, hHalfTurn]
  rfl

/-- The direction in which an angle opens on both sides of the first axis. -/
theorem Vec.angle_symmetric {distance width : ℝ} (hDistance : 0 < distance) (hWidth : 0 < width) :
    (⟨distance, width, 0⟩ : Vec ℝ).angle ⟨distance, -width, 0⟩ = 2 * Real.arctan (width / distance) := by
  have hLength (side : ℝ) (hSide : side ^ 2 = width ^ 2) :
      (⟨distance, side, 0⟩ : Vec ℝ).norm = √(distance ^ 2 + width ^ 2) := by
    rw [norm_exact, squaredNorm_exact, ← sq, ← sq, mul_zero, add_zero, hSide]
  have hSquare : √(distance ^ 2 + width ^ 2) * √(distance ^ 2 + width ^ 2) = distance ^ 2 + width ^ 2 :=
    Real.mul_self_sqrt (by positivity)
  have hCosine : Real.cos (2 * Real.arctan (width / distance)) =
      (distance ^ 2 - width ^ 2) / (distance ^ 2 + width ^ 2) := by
    rw [Real.cos_two_mul, Real.cos_sq_arctan]
    field_simp
    ring
  have hDot : (⟨distance, width, 0⟩ : Vec ℝ).dot ⟨distance, -width, 0⟩ = distance ^ 2 - width ^ 2 := by
    rw [dot_exact]
    ring
  have hPositive : 0 < Real.arctan (width / distance) := Real.arctan_pos.mpr (div_pos hWidth hDistance)
  have hAcute := Real.arctan_lt_pi_div_two (width / distance)
  rw [angle, hDot, hLength width rfl, hLength (-width) (neg_sq width), hSquare, ← hCosine]
  exact Real.arccos_cos (by linarith) (by linarith)

namespace Camera

theorem aperture?_facing (distance aspectRatio : ℝ) :
    (facing distance aspectRatio).aperture? = some (2 * Scalar.degrees (Real.arctan (distance / aspectRatio))) := by
  simp only [aperture?, facing, Scalar.two_exact]
  rfl

/-- The rays leave the eye through a point of the screen at the height of the eye. -/
theorem direction_facing (distance aspectRatio u : ℝ) :
    ((facing distance aspectRatio).ray u 0.5).direction = ⟨distance, (1 - 2 * u) * aspectRatio, 0⟩ := by
  rw [ray, facing, Ray.transform_identity]
  norm_num [localRay, Ray.primary]

/-- Half of the true angle is the one at which half the screen is seen from its distance. -/
theorem fieldOfView_facing {distance aspectRatio : ℝ} (hDistance : 0 < distance) (hRatio : 0 < aspectRatio) :
    (facing distance aspectRatio).fieldOfView = 2 * Scalar.degrees (Real.arctan (aspectRatio / distance)) := by
  have hLeft : (1 - 2 * 0) * aspectRatio = aspectRatio := by ring
  have hRight : (1 - 2 * 1) * aspectRatio = -aspectRatio := by ring
  rw [fieldOfView, direction_facing, direction_facing, hLeft, hRight, Vec.angle_symmetric hDistance hRatio,
    Scalar.degrees_exact, Scalar.degrees_exact]
  ring

section Proportions

variable {distance aspectRatio : ℝ} (hDistance : 0 < distance) (hRatio : 0 < aspectRatio)

include hDistance hRatio

/-- The angle that is reported is the other acute angle of the triangle between the eye and half of the screen. -/
theorem aperture?_eq_supplement :
    (facing distance aspectRatio).aperture? = some (180 - (facing distance aspectRatio).fieldOfView) := by
  have hOther : Real.arctan (distance / aspectRatio) = Real.pi / 2 - Real.arctan (aspectRatio / distance) := by
    rw [← inv_div, Real.arctan_inv_of_pos (div_pos hRatio hDistance)]
  have hPi := Real.pi_ne_zero
  rw [aperture?_facing, fieldOfView_facing hDistance hRatio, hOther, Scalar.degrees_exact, Scalar.degrees_exact]
  congr 1
  field_simp

/-- The view is a right angle wide when the screen is as far away as it reaches. -/
theorem fieldOfView_eq_ninety_iff : (facing distance aspectRatio).fieldOfView = 90 ↔ distance = aspectRatio := by
  have hPi := Real.pi_pos
  have hEighth : (facing distance aspectRatio).fieldOfView = 90 ↔
      Real.arctan (aspectRatio / distance) = Real.pi / 4 := by
    rw [fieldOfView_facing hDistance hRatio, Scalar.degrees_exact]
    field_simp
    constructor <;> intro h <;> linarith
  rw [hEighth, Real.arctan_eq_pi_div_four, div_eq_one_iff_eq hDistance.ne', eq_comm]

/-- From farther away the screen fills a smaller angle. -/
theorem fieldOfView_lt {farther : ℝ} (hFarther : distance < farther) :
    (facing farther aspectRatio).fieldOfView < (facing distance aspectRatio).fieldOfView := by
  have hAngle : Real.arctan (aspectRatio / farther) < Real.arctan (aspectRatio / distance) :=
    Real.arctan_strictMono (div_lt_div_of_pos_left hRatio hDistance hFarther)
  rw [fieldOfView_facing (hDistance.trans hFarther) hRatio, fieldOfView_facing hDistance hRatio,
    Scalar.degrees_exact, Scalar.degrees_exact]
  have hPi := Real.pi_pos
  gcongr

end Proportions

/-- What a camera reports as its field of view is not the angle between its outermost rays at the height of the eye,
but what is missing from that angle to half a turn. The two agree only if the distance of the screen is the aspect
ratio. From farther away the angle between the rays is smaller, and the one reported is larger. -/
theorem aperture?_opposes_fieldOfView {distance aspectRatio : ℝ} (hDistance : 0 < distance)
    (hRatio : 0 < aspectRatio) :
    (facing distance aspectRatio).fieldOfView = 2 * Scalar.degrees (Real.arctan (aspectRatio / distance)) ∧
      (facing distance aspectRatio).aperture? = some (180 - (facing distance aspectRatio).fieldOfView) ∧
      ((facing distance aspectRatio).aperture? = some (facing distance aspectRatio).fieldOfView ↔
        distance = aspectRatio) ∧
      ∀ farther, distance < farther →
        (facing farther aspectRatio).fieldOfView < (facing distance aspectRatio).fieldOfView ∧
        ∃ reported before, (facing farther aspectRatio).aperture? = some reported ∧
          (facing distance aspectRatio).aperture? = some before ∧ before < reported := by
  have hReported := aperture?_eq_supplement hDistance hRatio
  refine ⟨fieldOfView_facing hDistance hRatio, hReported, ?_, fun farther hFarther => ?_⟩
  · rw [hReported, Option.some_inj, ← fieldOfView_eq_ninety_iff hDistance hRatio]
    constructor <;> intro h <;> linarith
  · have hLess := fieldOfView_lt hDistance hRatio hFarther
    refine ⟨hLess, _, _, aperture?_eq_supplement (hDistance.trans hFarther) hRatio, hReported, ?_⟩
    linarith

/-- A screen twice as wide as it is high, seen from half its height away, fills more than a right angle. Less than one
is reported. -/
theorem aperture?_lt_fieldOfView_wide :
    ((0 : ℝ) < 1 ∧ (0 : ℝ) < 2) ∧ ∃ reported, (facing 1 2).aperture? = some reported ∧ reported < 90 ∧
      90 < (facing 1 2).fieldOfView := by
  have hNear : (0 : ℝ) < 1 := one_pos
  have hWide : (0 : ℝ) < 2 := two_pos
  have hRight := (fieldOfView_eq_ninety_iff hWide hWide).mpr rfl
  have hLess := fieldOfView_lt hNear hWide (one_lt_two : (1 : ℝ) < 2)
  refine ⟨⟨hNear, hWide⟩, _, aperture?_eq_supplement hNear hWide, ?_, ?_⟩ <;> linarith

theorem aperture?_opposes_fieldOfView_wide :
    ((0 : ℝ) < 1 ∧ (0 : ℝ) < 2) ∧ (facing 1 2).aperture? ≠ some (facing 1 2).fieldOfView ∧
      (facing 2 2).fieldOfView < (facing 1 2).fieldOfView := by
  obtain ⟨-, -, hAgree, hFarther⟩ := aperture?_opposes_fieldOfView (one_pos : (0 : ℝ) < 1) (two_pos : (0 : ℝ) < 2)
  refine ⟨⟨one_pos, two_pos⟩, fun hSame => ?_, (hFarther 2 one_lt_two).1⟩
  exact absurd (hAgree.mp hSame) (by norm_num)

end Camera

end RayTracer
