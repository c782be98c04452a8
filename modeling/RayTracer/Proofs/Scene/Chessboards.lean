import Mathlib
import RayTracer.Proofs.Exact.Reals
import RayTracer.Scene.Material

/-! Chessboards, over exact numbers. The squares are numbered from the corner where both coordinates are zero, in both
directions, and a square has the first color exactly if the sum of its two numbers is even. Squares before zero are
numbered downwards: the number is the greatest one below the coordinate and not what is left when the digits behind the
point are cut off, and its parity is that of its remainder, which is never negative. So the pattern goes on across both
axes as it does elsewhere, as far as numbers of squares are held by words. -/

namespace RayTracer.Pigment

/-- Coordinates that, counted in squares, lie within the signed words of 64 bits. -/
def Numbered (steps : ℕ) (x : ℝ) : Prop := ((-2 ^ 63 : ℤ) : ℝ) ≤ x * steps ∧ x * steps < ((2 ^ 63 : ℤ) : ℝ)

section Squares

variable {steps : ℕ} {x : ℝ}

/-- Squares are counted from the corner in both directions, as far as words go. -/
theorem square_exact (steps : ℕ) (x : ℝ) : square steps x = max (-2 ^ 63) (min ⌊x * steps⌋ (2 ^ 63 - 1)) := by
  change max (-2 ^ 63) (min (wholePart (⌊x * steps⌋ : ℝ)) (2 ^ 63 - 1)) = _
  rw [wholePart_intCast]

theorem square_of_numbered (h : Numbered steps x) : square steps x = ⌊x * steps⌋ := by
  have hLow : -2 ^ 63 ≤ ⌊x * steps⌋ := Int.le_floor.mpr h.1
  have hHigh : ⌊x * steps⌋ < 2 ^ 63 := Int.floor_lt.mpr h.2
  rw [square_exact, min_eq_left (Int.le_sub_one_of_lt hHigh), max_eq_right hLow]

/-- Moving by so many squares, in either direction, adds as many to the number of the square. -/
theorem square_shift (hSteps : 1 ≤ steps) {k : ℤ} (h : Numbered steps x) (hShift : Numbered steps (x + k / steps)) :
    square steps (x + k / steps) = square steps x + k := by
  have hPos : (steps : ℝ) ≠ 0 := Nat.cast_ne_zero.mpr (Nat.one_le_iff_ne_zero.mp hSteps)
  have hScaled : (x + k / steps) * steps = x * steps + k := by rw [add_mul, div_mul_cancel₀ _ hPos]
  rw [square_of_numbered hShift, square_of_numbered h, hScaled, Int.floor_add_intCast]

/-- The square at the corner has the number zero. -/
theorem square_of_mem_Ico (hSteps : 1 ≤ steps) (h : x ∈ Set.Ico 0 (1 / (steps : ℝ))) : square steps x = 0 := by
  have hPos : (0 : ℝ) < steps := Nat.cast_pos.mpr hSteps
  have hNonneg : 0 ≤ x * steps := mul_nonneg h.1 hPos.le
  have hBelow : x * steps < 1 := (lt_div_iff₀ hPos).mp h.2
  have hNumbered : Numbered steps x := by
    rw [Numbered]
    push_cast
    constructor <;> linarith
  rw [square_of_numbered hNumbered, Int.floor_eq_zero_iff]
  exact ⟨hNonneg, hBelow⟩

end Squares

variable {first second : Color ℝ} {steps : ℕ}

/-- Two numbers leave the same remainder by two exactly if their sum is even. -/
theorem colorAt_checkered (first second : Color ℝ) (steps : ℕ) (uv : SurfacePoint ℝ) :
    (checkered first second steps).colorAt uv =
      .ok (if Even (square steps uv.u + square steps uv.v) then first else second) := by
  have hParity : square steps uv.u % 2 = square steps uv.v % 2 ↔ Even (square steps uv.u + square steps uv.v) := by
    rw [Int.even_iff]
    omega
  simp only [colorAt, hParity]

/-- An odd number of squares changes the color. -/
theorem ite_even_add_ne {k : ℤ} (hDistinct : first ≠ second) (hOdd : Odd k) (number : ℤ) :
    (if Even (number + k) then first else second) ≠ if Even number then first else second := by
  have hOther : Even (number + k) ↔ ¬Even number := by
    rw [Int.even_add, iff_false_right (Int.not_even_iff_odd.mpr hOdd)]
  by_cases hEven : Even number
  · rw [if_pos hEven, if_neg fun hSame => hOther.mp hSame hEven]
    exact hDistinct.symm
  · rw [if_neg hEven, if_pos (hOther.mpr hEven)]
    exact hDistinct

/-- A chessboard goes on over the whole plane. From any place, with coordinates of either sign, moving by whole numbers
of squares along both axes leads to the same color if the sum of the two numbers is even, and to the other one of the
two colors if it is odd, as far as the numbers of the squares are within the words. The square at the corner has the
first color. -/
theorem checkered_alternates (hDistinct : first ≠ second) (hSteps : 1 ≤ steps) :
    (∀ (u v : ℝ) (i j : ℤ), Numbered steps u → Numbered steps v →
      Numbered steps (u + i / steps) → Numbered steps (v + j / steps) →
      ∃ here there, (checkered first second steps).colorAt ⟨u, v⟩ = .ok here ∧
        (checkered first second steps).colorAt ⟨u + i / steps, v + j / steps⟩ = .ok there ∧
        (here = first ∨ here = second) ∧ (there = first ∨ there = second) ∧
        (Even (i + j) → there = here) ∧ (Odd (i + j) → there ≠ here)) ∧
    ∀ u ∈ Set.Ico 0 (1 / (steps : ℝ)), ∀ v ∈ Set.Ico 0 (1 / (steps : ℝ)),
      (checkered first second steps).colorAt ⟨u, v⟩ = .ok first := by
  refine ⟨fun u v i j hU hV hU' hV' => ?_, fun u hU v hV => ?_⟩
  · have hSum : square steps (u + i / steps) + square steps (v + j / steps) =
        square steps u + square steps v + (i + j) := by
      rw [square_shift hSteps hU hU', square_shift hSteps hV hV', add_add_add_comm]
    refine ⟨_, _, colorAt_checkered _ _ _ _, colorAt_checkered _ _ _ _, ite_eq_or_eq _ _ _, ite_eq_or_eq _ _ _,
      fun hEven => ?_, fun hOdd => ?_⟩
    · simp only [hSum, Int.even_add, hEven, iff_true]
    · simp only [hSum]
      exact ite_even_add_ne hDistinct hOdd _
  · rw [colorAt_checkered, square_of_mem_Ico hSteps hU, square_of_mem_Ico hSteps hV]
    rfl

/-- Around the corner of a board of white and black squares: one square to the left, before the second axis, is black,
and two squares from there along that axis, beyond the first one, is black again. -/
theorem checkered_alternates_aroundCorner :
    ((Color.white : Color ℝ) ≠ Color.black ∧ 1 ≤ 2) ∧
      (checkered Color.white Color.black 2).colorAt ⟨(1 / 4 : ℝ), 1 / 4⟩ = .ok Color.white ∧
      (checkered Color.white Color.black 2).colorAt ⟨(-1 / 4 : ℝ), 1 / 4⟩ = .ok Color.black ∧
      (checkered Color.white Color.black 2).colorAt ⟨(-1 / 4 : ℝ), -3 / 4⟩ = .ok Color.black := by
  have hDistinct : (Color.white : Color ℝ) ≠ Color.black := by
    intro hSame
    have hRed := congrArg Color.r hSame
    norm_num [Color.white, Color.black] at hRed
  obtain ⟨hMoves, hCorner⟩ := checkered_alternates hDistinct (Nat.le_succ 1)
  have hSmall : (1 / 4 : ℝ) ∈ Set.Ico 0 (1 / ((2 : ℕ) : ℝ)) := by
    constructor <;> norm_num
  have hWhite := hCorner _ hSmall _ hSmall
  have hLeft : (1 / 4 : ℝ) + ((-1 : ℤ) : ℝ) / ((2 : ℕ) : ℝ) = -1 / 4 := by norm_num
  have hStay (x : ℝ) : x + ((0 : ℤ) : ℝ) / ((2 : ℕ) : ℝ) = x := by simp
  have hDown : (1 / 4 : ℝ) + ((-2 : ℤ) : ℝ) / ((2 : ℕ) : ℝ) = -3 / 4 := by norm_num
  have hNear : Numbered 2 (1 / 4) ∧ Numbered 2 (-1 / 4) ∧ Numbered 2 (-3 / 4) := by
    norm_num [Numbered]
  have hBlack : (checkered Color.white Color.black 2).colorAt ⟨(-1 / 4 : ℝ), 1 / 4⟩ = .ok Color.black := by
    obtain ⟨here, there, hHere, hThere, -, hEither, -, hOther⟩ :=
      hMoves (1 / 4) (1 / 4) (-1) 0 hNear.1 hNear.1 (hLeft ▸ hNear.2.1) ((hStay _).symm ▸ hNear.1)
    obtain rfl : here = Color.white := Except.ok.inj (hHere.symm.trans hWhite)
    rw [hLeft, hStay] at hThere
    rw [hThere, hEither.resolve_left (hOther (by decide))]
  have hAgain : (checkered Color.white Color.black 2).colorAt ⟨(-1 / 4 : ℝ), -3 / 4⟩ = .ok Color.black := by
    obtain ⟨here, there, hHere, hThere, -, -, hSame, -⟩ :=
      hMoves (-1 / 4) (1 / 4) 0 (-2) hNear.2.1 hNear.1 ((hStay _).symm ▸ hNear.2.1) (hDown ▸ hNear.2.2)
    rw [hStay, hDown] at hThere
    rw [hThere, hSame (by decide), ← hHere, hBlack]
  exact ⟨⟨hDistinct, Nat.le_succ 1⟩, hWhite, hBlack, hAgain⟩

end RayTracer.Pigment
