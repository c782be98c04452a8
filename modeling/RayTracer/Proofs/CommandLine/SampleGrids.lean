import Mathlib
import RayTracer.CommandLine.Run
import RayTracer.Proofs.Binary.ExactArithmetic

/-! Grids of cells for numbers of samples. The roots of squares of 32 bits are exact in binary64, so the count
that is nearest to a root is the side of the grid, and squaring a count again tells whether there is one. -/

namespace RayTracer.CommandLine

variable {samples side : ℕ}

/-- The side of a square of 32 bits is found by its root. -/
theorem nearestCount_sqrt_square (hSquare : side * side < UInt32.size) :
    (Binary.Parts.ofFloat (Scalar.sqrt (Scalar.ofNat (side * side)))).nearestCount (UInt32.size - 1) = side := by
  have hSize : UInt32.size = 4294967296 := rfl
  have hSide : side ≤ side * side := Nat.le_mul_self side
  have hRoot : (Scalar.sqrt (Scalar.ofNat (side * side)) : Float) = Binary.dyadic side 0 := by
    change Float.sqrt (Float.ofNat (side * side)) = _
    rw [Binary.ofNat_eq_dyadic (by omega), Binary.sqrt_dyadic (by omega)]
  rw [hRoot, Binary.nearestCount_dyadic (by omega) (by omega)]

/-- Squares that 32 bits can count have their roots as sides. -/
theorem samplesPerSide_square (hSquare : side * side < UInt32.size) : samplesPerSide (side * side) = .ok side := by
  simp only [samplesPerSide, nearestCount_sqrt_square hSquare]
  rw [if_pos ⟨hSquare, trivial⟩]

/-- A side is never given for another number than its square, and squares that have no side fill more than 32 bits. -/
theorem samplesPerSide_eq_ok_iff :
    samplesPerSide samples = .ok side ↔ side * side = samples ∧ samples < UInt32.size := by
  refine ⟨fun hSide => ?_, fun ⟨hSquare, hSamples⟩ => hSquare ▸ samplesPerSide_square (hSquare ▸ hSamples)⟩
  simp only [samplesPerSide] at hSide
  split at hSide
  next hSquare =>
    cases hSide
    exact ⟨hSquare.2, hSquare.2 ▸ hSquare.1⟩
  next => cases hSide

/-- There is one reason not to find a side. -/
theorem samplesPerSide_eq_error {failure : Failure} (hSide : samplesPerSide samples = .error failure) :
    failure = .unevenSamples samples := by
  simp only [samplesPerSide] at hSide
  split at hSide
  next => cases hSide
  next => exact (Except.error.inj hSide).symm

end RayTracer.CommandLine
