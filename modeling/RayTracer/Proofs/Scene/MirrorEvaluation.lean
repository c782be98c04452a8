import Mathlib
import RayTracer.Proofs.Exact.Angles
import RayTracer.Proofs.Scene.MirrorScattering

/-! What a mirror shows between two directions, over exact numbers. Evaluation compares how steep the two are and not
which way around the normal they point. The difference of their angles to the normal never exceeds the angle between
one of them and the mirror image of the other, so light near the image is always shown. The two are the same only for
directions in one half-plane with the image. Elsewhere the mirror also shows light that it does not reflect. -/

namespace RayTracer

namespace Vec

/-- The mirror image of a vector about an axis of unit length: the part along the axis stays, the rest turns around. -/
noncomputable def mirrorImage (axis v : Vec ℝ) : Vec ℝ := axis * (2.0 * axis.dot v) - v

theorem mirrorImage_exact (axis v : Vec ℝ) : axis.mirrorImage v = axis * (2 * axis.dot v) - v := by
  rw [mirrorImage, Scalar.two_exact]

/-- The mirror image of where light comes from is where it goes to. -/
theorem mirrorImage_eq_neg_reflection (axis v : Vec ℝ) : axis.mirrorImage v = -axis.reflection v := by
  rw [mirrorImage_exact, reflection_exact]
  ext <;> simp only [neg_exact, sub_exact, scale_exact] <;> ring

section MirrorImages

variable {axis : Vec ℝ} (hUnit : axis.squaredNorm = 1) (v : Vec ℝ)

include hUnit

theorem dot_mirrorImage : axis.dot (axis.mirrorImage v) = axis.dot v := by
  rw [mirrorImage_eq_neg_reflection, dot_neg, dot_reflection hUnit, neg_neg]

theorem norm_mirrorImage : (axis.mirrorImage v).norm = v.norm := by
  rw [mirrorImage_eq_neg_reflection, norm_exact, squaredNorm_neg, squaredNorm_reflection hUnit, norm_exact]

theorem mirrorImage_ne_zero {v : Vec ℝ} (h : v ≠ ⟨0, 0, 0⟩) : axis.mirrorImage v ≠ ⟨0, 0, 0⟩ := by
  intro hZero
  have hLength := norm_mirrorImage hUnit v
  have hNone : (⟨0, 0, 0⟩ : Vec ℝ).norm = 0 := by simp [norm_exact, squaredNorm_exact]
  rw [hZero, hNone] at hLength
  exact (norm_pos h).ne hLength

/-- A mirror image is at the same angle to the axis. -/
theorem angle_mirrorImage : axis.angle (axis.mirrorImage v) = axis.angle v := by
  rw [angle, dot_mirrorImage hUnit, norm_mirrorImage hUnit, angle]

/-- A vector above the plane is twice as far from its image as from the axis. -/
theorem angle_mirrorImage_self {v : Vec ℝ} (h : v ≠ ⟨0, 0, 0⟩) (hAbove : 0 ≤ axis.dot v) :
    (axis.mirrorImage v).angle v = 2 * axis.angle v := by
  have hAxis : axis.norm = 1 := (norm_eq_one_iff axis).mpr hUnit
  have hLength := (norm_pos h).ne'
  have hSelf : v.dot v = v.norm ^ 2 := by rw [sq, norm_mul_norm, squaredNorm_exact, dot_exact]
  have hDot : (axis.mirrorImage v).dot v = 2 * axis.dot v ^ 2 - v.norm ^ 2 := by
    rw [mirrorImage_exact, dot_comm, dot_sub, dot_scale, dot_comm v axis, hSelf]
    ring
  have hCosine : (axis.mirrorImage v).dot v / ((axis.mirrorImage v).norm * v.norm) = Real.cos (2 * axis.angle v) := by
    rw [Real.cos_two_mul, cos_angle, hDot, norm_mirrorImage hUnit, hAxis]
    field_simp
  have hAcute := angle_le_right hAbove
  have hNonneg : 0 ≤ axis.angle v := Real.arccos_nonneg _
  rw [angle, hCosine]
  exact Real.arccos_cos (by linarith) (by linarith)

end MirrorImages

end Vec

namespace Reflection

section Directions

variable {normal : Normal ℝ} (hUnit : normal.toVec.norm = 1)

include hUnit

/-- The polar angle is that to the normal. -/
theorem polarAngle_eq_angle (direction : Vec ℝ) :
    polarAngle normal.normalized.toVec direction = normal.toVec.angle direction := by
  rw [polarAngle, Scalar.acos_clamp, Normal.toVec_normalized, Vec.normalized_of_unit ((Vec.norm_eq_one_iff _).mp hUnit),
    Vec.angle, hUnit, one_mul, Vec.normalized_exact, Vec.dot_scale, mul_one_div]

/-- A mirror compares nothing but the two angles to the normal. -/
theorem eval_specular (pigment : Pigment ℝ) (tolerance : ℝ) (incoming outgoing : Vec ℝ) (uv : SurfacePoint ℝ) :
    (specular pigment tolerance).eval normal incoming outgoing uv =
      if |normal.toVec.angle incoming - normal.toVec.angle outgoing| < tolerance then pigment.colorAt uv
      else .ok Color.black := by
  rw [← polarAngle_eq_angle hUnit, ← polarAngle_eq_angle hUnit]
  rfl

/-- Light from a direction is scattered into its mirror image. -/
theorem mirrored_neg (incoming : Vec ℝ) :
    mirrored normal (-incoming) = (normal.toVec.mirrorImage incoming).normalized := by
  have hSquare := (Vec.norm_eq_one_iff _).mp hUnit
  rw [mirrored_exact, Vec.normalized_of_unit hSquare, Vec.normalized_neg, Vec.normalized_exact, Vec.normalized_exact,
    Vec.norm_mirrorImage hSquare, Vec.reflection_exact, Vec.mirrorImage_exact, Vec.dot_neg, Vec.dot_scale]
  ext <;> simp only [Vec.neg_exact, Vec.sub_exact, Vec.scale_exact] <;> ring

end Directions

/-- A mirror shows its pigment where two directions are about equally steep, whichever way around the normal they
point. The difference in steepness never exceeds the angle between the outgoing direction and the mirror image of the
incoming one, so what is within the tolerance of the image is shown. The two are the same, and nothing else is shown,
for the directions in a half-plane with the image that the normal bounds, and for no others. The direction in which
light is scattered is the image alone. The direction that it comes from is as steep as the image and twice as far from
it as from the normal, and it is shown for every positive tolerance. -/
theorem eval_specular_compares_polarAngles (pigment : Pigment ℝ) (tolerance : ℝ) (uv : SurfacePoint ℝ)
    {normal : Normal ℝ} (hUnit : normal.toVec.norm = 1) {incoming outgoing : Vec ℝ}
    (hIncoming : incoming ≠ ⟨0, 0, 0⟩) (hOutgoing : outgoing ≠ ⟨0, 0, 0⟩) (hComes : 0 ≤ normal.dot incoming)
    (hLeaves : 0 ≤ normal.dot outgoing) :
    let image := normal.toVec.mirrorImage incoming
    let gap := |normal.toVec.angle incoming - normal.toVec.angle outgoing|
    (∀ color ≠ Color.black, (specular pigment tolerance).eval normal incoming outgoing uv = .ok color ↔
        gap < tolerance ∧ pigment.colorAt uv = .ok color) ∧
      gap ≤ image.angle outgoing ∧
      (gap = image.angle outgoing ↔ normal.toVec.SameSide image outgoing) ∧
      mirrored normal (-incoming) = image.normalized ∧
      image.angle incoming = 2 * normal.toVec.angle incoming := by
  intro image gap
  have hSquare := (Vec.norm_eq_one_iff _).mp hUnit
  have hGap : gap = |normal.toVec.angle image - normal.toVec.angle outgoing| := by
    rw [Vec.angle_mirrorImage hSquare]
  have hNormal : normal.toVec ≠ ⟨0, 0, 0⟩ := by
    intro hZero
    rw [hZero] at hSquare
    norm_num [Vec.squaredNorm_exact] at hSquare
  have hImage : 0 ≤ normal.toVec.dot image := by
    rw [Vec.dot_mirrorImage hSquare]
    exact hComes
  refine ⟨fun color hColor => ?_, ?_, ?_, mirrored_neg hUnit incoming,
    Vec.angle_mirrorImage_self hSquare hIncoming hComes⟩
  · rw [eval_specular hUnit]
    split
    next hClose => rw [and_iff_right hClose]
    next hFar =>
        exact iff_of_false (fun hShown => hColor (Except.ok.inj hShown).symm) fun hShown => hFar hShown.1
  · rw [hGap]
    exact Vec.abs_angle_sub_le _ _ _
  · rw [hGap]
    exact Vec.abs_angle_sub_eq_iff hNormal hImage hLeaves (Vec.mirrorImage_ne_zero hSquare hIncoming) hOutgoing

/-- What a white mirror on the ground with the usual tolerance shows of light that falls onto it at half of a right
angle. -/
noncomputable def whiteMirror (outgoing : Vec ℝ) : Except Fault (Color ℝ) :=
  (specular (.uniform ⟨1, 1, 1⟩) defaultTolerance).eval ⟨0, 0, 1⟩ ⟨1, 0, 1⟩ outgoing ⟨0, 0⟩

theorem defaultTolerance_pos : 0 < (defaultTolerance : ℝ) := div_pos Real.pi_pos (by norm_num)

theorem norm_upwards : (⟨0, 0, 1⟩ : Normal ℝ).toVec.norm = 1 := by
  norm_num [Vec.norm_exact, Vec.squaredNorm_exact, Normal.toVec]

theorem mirrorImage_upwards : (⟨0, 0, 1⟩ : Normal ℝ).toVec.mirrorImage ⟨1, 0, 1⟩ = ⟨-1, 0, 1⟩ := by
  norm_num [Vec.mirrorImage, Normal.toVec, Vec.dot_exact, Vec.sub_exact, Vec.scale_exact]

/-- A quarter turn around the normal away from where the light comes from, the mirror is still white. -/
theorem eval_specular_compares_polarAngles_turned :
    ((⟨0, 0, 1⟩ : Normal ℝ).toVec.norm = 1 ∧ (⟨1, 0, 1⟩ : Vec ℝ) ≠ ⟨0, 0, 0⟩ ∧ (⟨0, 1, 1⟩ : Vec ℝ) ≠ ⟨0, 0, 0⟩ ∧
      0 ≤ (⟨0, 0, 1⟩ : Normal ℝ).dot (⟨1, 0, 1⟩ : Vec ℝ) ∧ 0 ≤ (⟨0, 0, 1⟩ : Normal ℝ).dot (⟨0, 1, 1⟩ : Vec ℝ)) ∧
      whiteMirror ⟨0, 1, 1⟩ = .ok ⟨1, 1, 1⟩ ∧
      0 < ((⟨0, 0, 1⟩ : Normal ℝ).toVec.mirrorImage ⟨1, 0, 1⟩).angle ⟨0, 1, 1⟩ := by
  have hComes : 0 ≤ (⟨0, 0, 1⟩ : Normal ℝ).dot (⟨1, 0, 1⟩ : Vec ℝ) := by
    norm_num [Normal.dot_exact, Normal.toVec, Vec.dot_exact]
  have hLeaves : 0 ≤ (⟨0, 0, 1⟩ : Normal ℝ).dot (⟨0, 1, 1⟩ : Vec ℝ) := by
    norm_num [Normal.dot_exact, Normal.toVec, Vec.dot_exact]
  have hIncoming : (⟨1, 0, 1⟩ : Vec ℝ) ≠ ⟨0, 0, 0⟩ := by simp
  have hOutgoing : (⟨0, 1, 1⟩ : Vec ℝ) ≠ ⟨0, 0, 0⟩ := by simp
  have hWhite : (⟨1, 1, 1⟩ : Color ℝ) ≠ Color.black := by simp [Color.black_exact]
  obtain ⟨hShown, hGap, hExact, -, -⟩ := eval_specular_compares_polarAngles (.uniform ⟨1, 1, 1⟩) defaultTolerance
    ⟨0, 0⟩ norm_upwards hIncoming hOutgoing hComes hLeaves
  have hSteep : |(⟨0, 0, 1⟩ : Normal ℝ).toVec.angle ⟨1, 0, 1⟩ - (⟨0, 0, 1⟩ : Normal ℝ).toVec.angle ⟨0, 1, 1⟩| = 0 := by
    norm_num [Vec.angle, Vec.norm_exact, Vec.squaredNorm_exact, Vec.dot_exact, Normal.toVec]
  have hTurned : ¬(⟨0, 0, 1⟩ : Normal ℝ).toVec.SameSide ⟨-1, 0, 1⟩ ⟨0, 1, 1⟩ := by
    rintro ⟨side, a, b, c, d, -, -, hImage, hOut⟩
    have hAcross : -1 = 0 * a + side.x * b := congrArg Vec.x hImage
    have hAcross' : 0 = 0 * c + side.x * d := congrArg Vec.x hOut
    have hAlong : 1 = 0 * c + side.y * d := congrArg Vec.y hOut
    have hD : d ≠ 0 := by
      rintro rfl
      norm_num at hAlong
    have hSide : side.x = 0 := (mul_eq_zero.mp (by linarith : side.x * d = 0)).resolve_right hD
    rw [hSide] at hAcross
    norm_num at hAcross
  rw [hSteep, mirrorImage_upwards] at hGap hExact
  refine ⟨⟨norm_upwards, hIncoming, hOutgoing, hComes, hLeaves⟩, (hShown _ hWhite).mpr ⟨?_, rfl⟩, ?_⟩
  · rw [hSteep]
    exact defaultTolerance_pos
  · rw [mirrorImage_upwards]
    exact lt_of_le_of_ne hGap fun hNone => hTurned (hExact.mp hNone)

/-- Where the light comes from the mirror is white as well, a right angle away from the mirror image. -/
theorem eval_specular_shows_source :
    ((⟨0, 0, 1⟩ : Normal ℝ).toVec.norm = 1 ∧ (⟨1, 0, 1⟩ : Vec ℝ) ≠ ⟨0, 0, 0⟩ ∧
      0 < (⟨0, 0, 1⟩ : Normal ℝ).dot (⟨1, 0, 1⟩ : Vec ℝ)) ∧
      whiteMirror ⟨1, 0, 1⟩ = .ok ⟨1, 1, 1⟩ ∧ (⟨1, 1, 1⟩ : Color ℝ) ≠ Color.black ∧
      ((⟨0, 0, 1⟩ : Normal ℝ).toVec.mirrorImage ⟨1, 0, 1⟩).angle ⟨1, 0, 1⟩ = Real.pi / 2 ∧
      (defaultTolerance : ℝ) < Real.pi / 2 := by
  refine ⟨⟨norm_upwards, by simp, ?_⟩, ?_, by simp [Color.black_exact], ?_, ?_⟩
  · norm_num [Normal.dot_exact, Normal.toVec, Vec.dot_exact]
  · rw [whiteMirror, eval_specular norm_upwards, sub_self, abs_zero, if_pos defaultTolerance_pos]
    rfl
  · rw [mirrorImage_upwards]
    norm_num [Vec.angle, Vec.dot_exact]
  · have hTolerance : (defaultTolerance : ℝ) = Real.pi / 1800 := by
      rw [defaultTolerance, show (1800.0 : ℝ) = 1800 by norm_num]
      rfl
    rw [hTolerance]
    linarith [Real.pi_pos]

end Reflection

end RayTracer
