import Mathlib
import RayTracer.Geometry.Ray
import RayTracer.Proofs.Exact.Reals

/-! Transformations of exact coordinates. -/

namespace RayTracer

namespace Transformation

/-- The identity turns no vector. -/
theorem applyVec_identity (v : Vec ℝ) : (identity : Transformation ℝ).applyVec v = v := by
  simp only [applyVec, identity, Matrix.applyVec, Matrix.identity, Row.dotVec]
  norm_num

theorem applyPoint_identity (p : Point ℝ) : (identity : Transformation ℝ).applyPoint p = p := by
  simp only [applyPoint, identity, Matrix.apply, Matrix.identity, Row.dot, Scalar.same]
  norm_num

theorem applyNormal_identity (n : Normal ℝ) : (identity : Transformation ℝ).applyNormal n = n := by
  simp only [applyNormal, identity, Matrix.transpose, Matrix.applyVec, Matrix.identity, Row.dotVec,
    Normal.toVec, Vec.toNormal]
  norm_num

end Transformation

/-- The identity leaves every ray as it is. -/
theorem Ray.transform_identity (ray : Ray ℝ) : ray.transform .identity = ray := by
  rw [transform, Transformation.applyPoint_identity, Transformation.applyVec_identity]

end RayTracer
