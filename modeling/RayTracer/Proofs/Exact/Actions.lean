import Mathlib
import RayTracer.Proofs.Exact.Compositions
import RayTracer.Proofs.Exact.Transformations

/-! What products of transformations do to points, vectors and normals. A product of affine maps acts by its
right factor and then by its left one, and its inverse first takes back what the left one did. That two
matrices are inverse to each other has to be known from one side only. -/

namespace RayTracer

namespace Matrix

/-- A product acts by its right factor first. -/
theorem apply_mul (a b : Matrix ℝ) (v : Row ℝ) : (a * b).apply v = a.apply (b.apply v) := by
  ext <;> simp only [apply, Row.dot, row0_mul, row1_mul, row2_mul, row3_mul, Row.through_eq] <;> ring

/-- Directions carry no weight that an affine right factor could change, so a product turns them in turn. -/
theorem applyVec_mul (a : Matrix ℝ) {b : Matrix ℝ} (hAffine : b.row3 = Row.affine) (v : Vec ℝ) :
    (a * b).applyVec v = a.applyVec (b.applyVec v) := by
  simp only [applyVec, Row.dotVec, row0_mul, row1_mul, row2_mul, Row.through_eq, hAffine, Row.affine,
    Vec.mk.injEq]
  refine ⟨?_, ?_, ?_⟩ <;> ring

/-- Transposed, the factors of a product change places. -/
theorem transpose_applyVec_mul (a : Matrix ℝ) {b : Matrix ℝ} (hAffine : b.row3 = Row.affine) (v : Vec ℝ) :
    (a * b).transpose.applyVec v = b.transpose.applyVec (a.transpose.applyVec v) := by
  simp only [applyVec, Row.dotVec, transpose, row0_mul, row1_mul, row2_mul, Row.through_eq, hAffine,
    Row.affine, Vec.mk.injEq]
  refine ⟨?_, ?_, ?_⟩ <;> ring

/-- The entries as those of a square matrix. -/
def entries (m : Matrix ℝ) :=
  !![m.row0.x, m.row0.y, m.row0.z, m.row0.w;
    m.row1.x, m.row1.y, m.row1.z, m.row1.w;
    m.row2.x, m.row2.y, m.row2.z, m.row2.w;
    m.row3.x, m.row3.y, m.row3.z, m.row3.w]

/-- The product is the usual one of matrices. -/
theorem entries_mul (a b : Matrix ℝ) : (a * b).entries = a.entries * b.entries := by
  ext i j
  fin_cases i <;> fin_cases j <;>
    simp [entries, Matrix.mul_apply, Fin.sum_univ_four, Row.through_eq]

theorem entries_identity : (identity : Matrix ℝ).entries = 1 := by
  ext i j
  fin_cases i <;> fin_cases j <;> simp [entries, identity_exact]

/-- A matrix is told by its entries. -/
theorem entries_injective : Function.Injective entries := by
  intro a b h
  have hEntry (i j : Fin 4) : a.entries i j = b.entries i j := by rw [h]
  ext
  · exact hEntry 0 0
  · exact hEntry 0 1
  · exact hEntry 0 2
  · exact hEntry 0 3
  · exact hEntry 1 0
  · exact hEntry 1 1
  · exact hEntry 1 2
  · exact hEntry 1 3
  · exact hEntry 2 0
  · exact hEntry 2 1
  · exact hEntry 2 2
  · exact hEntry 2 3
  · exact hEntry 3 0
  · exact hEntry 3 1
  · exact hEntry 3 2
  · exact hEntry 3 3

/-- An inverse from the right is one from the left, as for all square matrices. -/
theorem mul_eq_identity_comm {a b : Matrix ℝ} : a * b = identity ↔ b * a = identity := by
  rw [← entries_injective.eq_iff, ← entries_injective.eq_iff (a := b * a), entries_mul, entries_mul,
    entries_identity, mul_eq_one_comm]

end Matrix

namespace Transformation

/-- One product of the matrices and one last row say everything. -/
theorem regular_of_affine {t : Transformation ℝ} (hInverse : t.forward * t.backward = Matrix.identity)
    (hAffine : t.forward.row3 = Row.affine) : t.Regular where
  forward_backward := hInverse
  backward_forward := Matrix.mul_eq_identity_comm.mp hInverse
  forward_affine := hAffine
  backward_affine := by
    calc
      t.backward.row3 = (t.forward * t.backward).row3 := by rw [Matrix.row3_mul, hAffine, Row.affine_through]
      _ = Row.affine := by rw [hInverse, Matrix.identity_exact, Row.affine]

theorem forward_mul (s t : Transformation ℝ) : (s * t).forward = s.forward * t.forward := rfl

/-- A point with its weight. -/
noncomputable def homogeneous (p : Point ℝ) : Row ℝ := ⟨p.x, p.y, p.z, 1.0⟩

/-- Where a point goes is settled by what the matrix makes of the point with its weight. -/
theorem applyPoint_congr {s t : Transformation ℝ} {p q : Point ℝ}
    (h : s.forward.apply (homogeneous p) = t.forward.apply (homogeneous q)) :
    s.applyPoint p = t.applyPoint q := by
  rw [homogeneous, homogeneous] at h
  rw [applyPoint, applyPoint, h]

/-- An affine map leaves the weight of a point at one, so no division takes place. -/
theorem homogeneous_applyPoint {t : Transformation ℝ} (hAffine : t.forward.row3 = Row.affine) (p : Point ℝ) :
    homogeneous (t.applyPoint p) = t.forward.apply (homogeneous p) := by
  rw [(applyPoint_of_affine hAffine p).2]
  ext
  · rfl
  · rfl
  · rfl
  · rw [homogeneous, homogeneous, Matrix.apply_w_of_affine hAffine]
    norm_num

variable {s t : Transformation ℝ}

/-- A product moves a point by its right factor and then by its left one. -/
theorem applyPoint_mul (ht : t.forward.row3 = Row.affine) (p : Point ℝ) :
    (s * t).applyPoint p = s.applyPoint (t.applyPoint p) := by
  have hProduct : (s * t).forward.apply (homogeneous p) = s.forward.apply (homogeneous (t.applyPoint p)) := by
    rw [homogeneous_applyPoint ht, forward_mul, Matrix.apply_mul]
  exact applyPoint_congr hProduct

/-- A product turns a vector by its right factor and then by its left one. -/
theorem applyVec_mul (ht : t.forward.row3 = Row.affine) (v : Vec ℝ) :
    (s * t).applyVec v = s.applyVec (t.applyVec v) :=
  Matrix.applyVec_mul s.forward ht v

/-- A product turns a normal by its right factor and then by its left one, as it does vectors. -/
theorem applyNormal_mul (hs : s.backward.row3 = Row.affine) (n : Normal ℝ) :
    (s * t).applyNormal n = s.applyNormal (t.applyNormal n) :=
  congrArg Vec.toNormal (Matrix.transpose_applyVec_mul t.backward hs n.toVec)

/-- What the outer factor does to a point, the inverse of a product takes back first. -/
theorem Regular.inverse_mul_applyPoint (hs : s.Regular) (p : Point ℝ) :
    (s * t).inverse.applyPoint (s.applyPoint p) = t.inverse.applyPoint p := by
  apply applyPoint_congr
  calc
    (t.backward * s.backward).apply (homogeneous (s.applyPoint p))
        = (t.backward * (s.backward * s.forward)).apply (homogeneous p) := by
          rw [homogeneous_applyPoint hs.forward_affine, ← Matrix.apply_mul, mul_assoc]
    _ = t.backward.apply (homogeneous p) := by rw [hs.backward_forward, Matrix.mul_identity]

/-- The inverse of a product takes back the left factor first. -/
theorem Regular.inverse_mul_applyVec (hs : s.Regular) (v : Vec ℝ) :
    (s * t).inverse.applyVec (s.applyVec v) = t.inverse.applyVec v := by
  calc
    (t.backward * s.backward).applyVec (s.forward.applyVec v)
        = (t.backward * (s.backward * s.forward)).applyVec v := by
          rw [← Matrix.applyVec_mul _ hs.forward_affine, mul_assoc]
    _ = t.backward.applyVec v := by rw [hs.backward_forward, Matrix.mul_identity]

/-- The inverse takes a point back. -/
theorem Regular.inverse_applyPoint (ht : t.Regular) (p : Point ℝ) :
    t.inverse.applyPoint (t.applyPoint p) = p := by
  have hBack : t.backward.apply (homogeneous (t.applyPoint p)) =
      (identity : Transformation ℝ).forward.apply (homogeneous p) := by
    rw [homogeneous_applyPoint ht.forward_affine, ← Matrix.apply_mul, ht.backward_forward]
    rfl
  calc
    t.inverse.applyPoint (t.applyPoint p) = (identity : Transformation ℝ).applyPoint p :=
      applyPoint_congr hBack
    _ = p := applyPoint_identity p

/-- The inverse takes a vector back. -/
theorem Regular.inverse_applyVec (ht : t.Regular) (v : Vec ℝ) : t.inverse.applyVec (t.applyVec v) = v := by
  calc
    t.backward.applyVec (t.forward.applyVec v) = (t.backward * t.forward).applyVec v :=
      (Matrix.applyVec_mul _ ht.forward_affine v).symm
    _ = v := by rw [ht.backward_forward]; exact applyVec_identity v

/-- Where a step from a point leads, a step along the image of the vector leads from the image of the point. -/
theorem applyPoint_add (hAffine : t.forward.row3 = Row.affine) (p : Point ℝ) (v : Vec ℝ) :
    t.applyPoint (p + v) = t.applyPoint p + t.applyVec v := by
  have hStep (a b c x y z : ℝ) : (⟨a, b, c⟩ : Point ℝ) + (⟨x, y, z⟩ : Vec ℝ) = ⟨a + x, b + y, c + z⟩ := rfl
  obtain ⟨a, b, c⟩ := p
  obtain ⟨x, y, z⟩ := v
  rw [(applyPoint_of_affine hAffine _).2, (applyPoint_of_affine hAffine ⟨a, b, c⟩).2]
  simp only [applyVec, Matrix.applyVec, Matrix.apply, Row.dot, Row.dotVec, hStep, Point.mk.injEq]
  -- The weight does not matter for a step.
  generalize (1.0 : ℝ) = weight
  refine ⟨?_, ?_, ?_⟩ <;> ring

/-- A vector that is longer stays so, whatever it is turned by. -/
theorem applyVec_scale (t : Transformation ℝ) (v : Vec ℝ) (k : ℝ) : t.applyVec (v * k) = t.applyVec v * k := by
  have hScaled (x y z : ℝ) : (⟨x, y, z⟩ : Vec ℝ) * k = ⟨x * k, y * k, z * k⟩ := rfl
  obtain ⟨x, y, z⟩ := v
  simp only [applyVec, Matrix.applyVec, Row.dotVec, hScaled, Vec.mk.injEq]
  refine ⟨?_, ?_, ?_⟩ <;> ring

/-- Normals are mapped by the transpose of the inverse. So the image of a normal stands to a vector as the
normal does to what the inverse makes of the vector. -/
theorem dot_applyNormal (t : Transformation ℝ) (n : Normal ℝ) (v : Vec ℝ) :
    (t.applyNormal n).dot v = n.dot (t.inverse.applyVec v) := by
  simp only [applyNormal, inverse, applyVec, Vec.toNormal, Normal.toVec, Normal.dot, Matrix.applyVec,
    Matrix.transpose, Row.dotVec]
  ring

/-- The length of a normal does not matter to where it is turned. -/
theorem applyNormal_scale (t : Transformation ℝ) (n : Normal ℝ) (k : ℝ) :
    t.applyNormal (n * k) = t.applyNormal n * k := by
  have hScaled (x y z : ℝ) : (⟨x, y, z⟩ : Normal ℝ) * k = ⟨x * k, y * k, z * k⟩ := rfl
  obtain ⟨x, y, z⟩ := n
  simp only [applyNormal, Matrix.applyVec, Row.dotVec, Normal.toVec, Vec.toNormal, hScaled, Normal.mk.injEq]
  refine ⟨?_, ?_, ?_⟩ <;> ring

end Transformation

end RayTracer
