import Mathlib
import RayTracer.Geometry.Transformation
import RayTracer.Proofs.Exact.Reals

/-! Matrices of exact numbers. They form a monoid, so products of many of them need no brackets, and the
ones with the last row of an affine map are closed under products. -/

namespace RayTracer

attribute [ext] Row Matrix

namespace Row

/-- A row multiplied by a matrix from the right: what a row of a left factor becomes in a product. -/
noncomputable def through (row : Row ℝ) (m : Matrix ℝ) : Row ℝ :=
  ⟨row.dot m.transpose.row0, row.dot m.transpose.row1, row.dot m.transpose.row2, row.dot m.transpose.row3⟩

/-- The last row of an affine map. -/
def affine : Row ℝ := ⟨0, 0, 0, 1⟩

theorem through_eq (row : Row ℝ) (m : Matrix ℝ) :
    row.through m =
      ⟨row.x * m.row0.x + row.y * m.row1.x + row.z * m.row2.x + row.w * m.row3.x,
        row.x * m.row0.y + row.y * m.row1.y + row.z * m.row2.y + row.w * m.row3.y,
        row.x * m.row0.z + row.y * m.row1.z + row.z * m.row2.z + row.w * m.row3.z,
        row.x * m.row0.w + row.y * m.row1.w + row.z * m.row2.w + row.w * m.row3.w⟩ := rfl

/-- The last row of an affine map takes the last row of the other factor. -/
@[simp] theorem affine_through (m : Matrix ℝ) : affine.through m = m.row3 := by
  ext <;> simp [through_eq, affine]

end Row

namespace Matrix

@[simp] theorem row0_mul (a b : Matrix ℝ) : (a * b).row0 = a.row0.through b := rfl

@[simp] theorem row1_mul (a b : Matrix ℝ) : (a * b).row1 = a.row1.through b := rfl

@[simp] theorem row2_mul (a b : Matrix ℝ) : (a * b).row2 = a.row2.through b := rfl

@[simp] theorem row3_mul (a b : Matrix ℝ) : (a * b).row3 = a.row3.through b := rfl

theorem identity_exact :
    (identity : Matrix ℝ) = ⟨⟨1, 0, 0, 0⟩, ⟨0, 1, 0, 0⟩, ⟨0, 0, 1, 0⟩, ⟨0, 0, 0, 1⟩⟩ := by
  rw [identity]
  norm_num

/-- A row goes through two matrices as it goes through their product. -/
theorem through_through (row : Row ℝ) (a b : Matrix ℝ) :
    (row.through a).through b = row.through (a * b) := by
  ext <;> simp only [Row.through_eq, row0_mul, row1_mul, row2_mul, row3_mul] <;> ring

theorem through_identity (row : Row ℝ) : row.through identity = row := by
  ext <;> simp [Row.through_eq, identity_exact]

theorem mul_identity (m : Matrix ℝ) : m * identity = m := by
  ext1 <;> simp only [row0_mul, row1_mul, row2_mul, row3_mul, through_identity]

theorem identity_mul (m : Matrix ℝ) : identity * m = m := by
  ext1 <;> ext <;> simp [Row.through_eq, identity_exact]

/-- Matrices under multiplication, so that the rules of products are those of any monoid. -/
noncomputable instance : Monoid (Matrix ℝ) where
  mul_assoc a b c := by
    ext1 <;> simp only [row0_mul, row1_mul, row2_mul, row3_mul, through_through]
  one := identity
  one_mul := identity_mul
  mul_one := mul_identity

/-- A product of affine maps is an affine map. -/
theorem row3_mul_of_affine {a b : Matrix ℝ} (hLeft : a.row3 = Row.affine) (hRight : b.row3 = Row.affine) :
    (a * b).row3 = Row.affine := by
  rw [row3_mul, hLeft, Row.affine_through, hRight]

/-- Affine maps leave the weight of a point at one. -/
theorem apply_w_of_affine {m : Matrix ℝ} (h : m.row3 = Row.affine) (x y z : ℝ) :
    (m.apply ⟨x, y, z, 1.0⟩).w = 1 := by
  rw [apply, h]
  norm_num [Row.dot, Row.affine]

/-- Two translations go as far as their sum. -/
theorem translation_mul (a b : Vec ℝ) : translation a * translation b = translation (a + b) := by
  have hSum : a + b = ⟨a.x + b.x, a.y + b.y, a.z + b.z⟩ := rfl
  ext <;> norm_num [translation, identity_exact, Row.through_eq, hSum, add_comm]

theorem translation_zero : translation (⟨0, 0, 0⟩ : Vec ℝ) = identity := by
  ext <;> norm_num [translation, identity_exact]

/-- Two scalings stretch by the product of their factors. -/
theorem scaling_mul (a b : Vec ℝ) :
    scaling a * scaling b = scaling ⟨a.x * b.x, a.y * b.y, a.z * b.z⟩ := by
  ext <;> norm_num [scaling, identity_exact, Row.through_eq]

theorem scaling_one : scaling (⟨1, 1, 1⟩ : Vec ℝ) = identity := by
  ext <;> norm_num [scaling, identity_exact]

/-- Rotations around the first axis add up. -/
theorem rotationX_mul (a b : ℝ) : rotationX a * rotationX b = rotationX (a + b) := by
  ext <;> norm_num [rotationX, identity_exact, Row.through_eq, Scalar.sin, Scalar.cos, Real.sin_add,
    Real.cos_add] <;> ring

theorem rotationY_mul (a b : ℝ) : rotationY a * rotationY b = rotationY (a + b) := by
  ext <;> norm_num [rotationY, identity_exact, Row.through_eq, Scalar.sin, Scalar.cos, Real.sin_add,
    Real.cos_add] <;> ring

theorem rotationZ_mul (a b : ℝ) : rotationZ a * rotationZ b = rotationZ (a + b) := by
  ext <;> norm_num [rotationZ, identity_exact, Row.through_eq, Scalar.sin, Scalar.cos, Real.sin_add,
    Real.cos_add] <;> ring

theorem rotationX_zero : rotationX (0 : ℝ) = identity := by
  ext <;> norm_num [rotationX, identity_exact, Scalar.sin, Scalar.cos]

theorem rotationY_zero : rotationY (0 : ℝ) = identity := by
  ext <;> norm_num [rotationY, identity_exact, Scalar.sin, Scalar.cos]

theorem rotationZ_zero : rotationZ (0 : ℝ) = identity := by
  ext <;> norm_num [rotationZ, identity_exact, Scalar.sin, Scalar.cos]

end Matrix

end RayTracer
