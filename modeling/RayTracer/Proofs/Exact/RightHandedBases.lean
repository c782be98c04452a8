import Mathlib
import RayTracer.Proofs.Exact.Bases

/-! Right-handed bases, computed without a division by zero. Where a number is divided by zero, exact numbers have no
quotient; here it is missing, and so is every number that is computed from it. The basis around a unit normal comes out
complete in these numbers. That zero is taken for a positive number, as exact numbers have it, or for a negative one, as
one of the two zeros of binary64, makes another basis and not a worse one. -/

namespace RayTracer

noncomputable section

/-- Exact numbers that may be missing: there is no quotient by zero, and nothing comes of a number that is missing. The
sign that a number has is given by a rule. -/
@[reducible] def Scalar.partialReal (sign : ℝ → ℝ) : Scalar (Option ℝ) where
  add := Option.map₂ (· + ·)
  sub := Option.map₂ (· - ·)
  mul := Option.map₂ (· * ·)
  div x y := x.bind fun a => y.bind fun b => if b = 0 then none else some (a / b)
  neg := Option.map (- ·)
  lt x y := ∃ a ∈ x, ∃ b ∈ y, a < b
  le x y := ∃ a ∈ x, ∃ b ∈ y, a ≤ b
  ofScientific mantissa negative exponent := some (OfScientific.ofScientific mantissa negative exponent)
  decLt := Classical.decRel _
  decLe := Classical.decRel _
  same x y := (Option.map₂ Scalar.same x y).getD false
  ofNat count := some count
  pi := some Real.pi
  abs := Option.map Scalar.abs
  sqrt := Option.map Scalar.sqrt
  sin := Option.map Scalar.sin
  cos := Option.map Scalar.cos
  acos := Option.map Scalar.acos
  atan := Option.map Scalar.atan
  atan2 := Option.map₂ Scalar.atan2
  pow := Option.map₂ Scalar.pow
  log10 := Option.map Scalar.log10
  floor := Option.map Scalar.floor
  larger := Option.map₂ Scalar.larger
  smaller := Option.map₂ Scalar.smaller
  unitSign := Option.map sign
  belowInfinity := Option.isSome
  truncate x := (x.map Scalar.truncate).getD 0
  truncateNat x := (x.map Scalar.truncateNat).getD 0
  truncateByte x := (x.map Scalar.truncateByte).getD 0
  totalLe x y := (Option.map₂ Scalar.totalLe x y).getD false

end

variable {α β : Type}

def Vec.map (f : α → β) (v : Vec α) : Vec β := ⟨f v.x, f v.y, f v.z⟩

def Normal.map (f : α → β) (n : Normal α) : Normal β := ⟨f n.x, f n.y, f n.z⟩

namespace Basis

def map (f : α → β) (basis : Basis α) : Basis β :=
  ⟨basis.first.map f, basis.second.map f, basis.third.map f⟩

/-- All numbers of the basis around a normal are there unless the one divisor is zero. -/
theorem ofNormal_partialReal_iff (sign : ℝ → ℝ) (n : Normal ℝ) :
    @ofNormal _ (Scalar.partialReal sign) (n.map some) = (around (sign n.z) n).map some ↔ sign n.z + n.z ≠ 0 := by
  let _ := Scalar.partialReal sign
  have hQuotient : (-1.0 : Option ℝ) / (Scalar.unitSign (some n.z) + some n.z) =
      if sign n.z + n.z = 0 then none else some (-1.0 / (sign n.z + n.z)) := rfl
  constructor
  · intro hThere hZero
    rw [if_pos hZero] at hQuotient
    have hMissing : (ofNormal (n.map some)).first.x = none := by
      simp only [ofNormal, Normal.map, hQuotient]
      rfl
    rw [hThere] at hMissing
    cases hMissing
  · intro hDivisor
    rw [if_neg hDivisor] at hQuotient
    simp only [ofNormal, Normal.map, hQuotient, around, ← Scalar.one_exact]
    rfl

/-- Around a unit normal, the basis that a sign of its third component leads to is computed without a division by zero.
Its axes have unit length, are perpendicular to each other and follow each other by the right-hand rule, and the third
one is the normal. For a normal whose third component is zero this holds of either sign. The basis is the one that
exact numbers give wherever they give the same sign. -/
theorem ofNormal_rightHanded {n : Normal ℝ} (hUnit : n.norm = 1) {sign : ℝ → ℝ}
    (hSign : sign n.z = 1 ∨ sign n.z = -1) (hSide : 0 ≤ sign n.z * n.z) :
    ∃ basis : Basis ℝ, @ofNormal _ (Scalar.partialReal sign) (n.map some) = basis.map some ∧
      (Scalar.unitSign n.z = sign n.z → ofNormal n = basis) ∧
      basis.Orthonormal ∧ basis.first.cross basis.second = basis.third ∧ basis.third = n.toVec := by
  have hSquare : sign n.z * sign n.z = 1 := mul_self_eq_one_iff.mpr hSign
  have hDivisor := Scalar.sign_add_ne_zero hSquare hSide
  have hSquared : n.toVec.squaredNorm = 1 := n.toVec.norm_eq_one_iff.mp hUnit
  refine ⟨around (sign n.z) n, (ofNormal_partialReal_iff sign n).mpr hDivisor, fun hSame => ?_,
    orthonormal_around hSquare hDivisor hSquared, cross_around hSquare hDivisor hSquared, rfl⟩
  rw [ofNormal_eq_around, hSame]

/-- The rule that takes zero for a negative number. -/
noncomputable def negativeZero (x : ℝ) : ℝ := if 0 < x then 1 else -1

/-- A normal on the horizon whose height is a negative zero. -/
theorem ofNormal_rightHanded_horizon :
    ((⟨3 / 5, 4 / 5, 0⟩ : Normal ℝ).norm = 1 ∧ negativeZero 0 = -1 ∧ 0 ≤ negativeZero 0 * 0) ∧
      ∃ basis : Basis ℝ, @ofNormal _ (Scalar.partialReal negativeZero) ⟨some (3 / 5), some (4 / 5), some 0⟩ =
          basis.map some ∧ basis.Orthonormal ∧ basis.first.cross basis.second = ⟨3 / 5, 4 / 5, 0⟩ := by
  have hUnit : (⟨3 / 5, 4 / 5, 0⟩ : Normal ℝ).norm = 1 := by
    norm_num [Normal.norm, Normal.squaredNorm, Scalar.sqrt]
  have hSign : negativeZero 0 = -1 := if_neg (lt_irrefl 0)
  have hSide : 0 ≤ negativeZero 0 * 0 := (mul_zero _).ge
  obtain ⟨basis, hBasis, -, hOrthonormal, hHand, hThird⟩ := ofNormal_rightHanded hUnit (.inr hSign) hSide
  exact ⟨⟨hUnit, hSign, hSide⟩, basis, hBasis, hOrthonormal, hHand.trans hThird⟩

end Basis

end RayTracer
